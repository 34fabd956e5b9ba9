import BazelRunfiles.Proofs.Manifest.Line
import BazelRunfiles.Proofs.RepoMapping.Load
import BazelRunfiles.Proofs.Text.Lines
import Mathlib.Logic.Relation

/-!
The ends of lines. A manifest and a repository mapping are made of the bodies of their lines, where
empty bodies count for nothing (`bodies`), and so a text may be changed in every way that leaves
these bodies alone. The two formats do not strip the same: a manifest drops one carriage return
before the newlines, a repository mapping all that there are. What they have in common (`Strips`) is
enough for blank lines and for the newline of the last line. Carriage returns may be put before all
newlines of a mapping, and of a manifest only where there is none yet.
-/

namespace BazelRunfiles

namespace Text

/-- What the lines hold by a rule for the body of a line; lines without a body hold nothing. -/
def bodies (body : Text → Text) (lines : List Text) : List Text := (lines.map body).filter (· ≠ [])

/-- Whether a rule for the body of a line takes line ends away. -/
structure Strips (body : Text → Text) : Prop where
  nil : body [] = []
  newline : ∀ line, body (line ++ ['\n']) = body line
  carriageReturn : body ['\r'] = []

/-- A line with nothing but its end. -/
def IsBlank (line : Text) : Prop := line = ['\n'] ∨ line = ['\r', '\n']

/-- Whether one text is the other with a blank line more, which stands before,
between or behind its lines. -/
def AddsBlankLine (t t' : Text) : Prop :=
  ∃ before blank after, t = before ++ after ∧ t' = before ++ (blank ++ after) ∧
    EndsLine before ∧ IsBlank blank

/-! ### What the bodies do not tell -/

section

variable {body : Text → Text} {lines more : List Text} {line t t' : Text}

theorem bodies_append : bodies body (lines ++ more) = bodies body lines ++ bodies body more := by
  simp [bodies]

theorem bodies_cons (line : Text) (lines : List Text) :
    bodies body (line :: lines) =
      if body line = [] then bodies body lines else body line :: bodies body lines := by
  rw [bodies, List.map_cons, List.filter_cons]
  by_cases h : body line = []
  · rw [if_neg (by simp [h]), if_pos h, bodies]
  · rw [if_pos (by simp [h]), if_neg h, bodies]

theorem bodies_cons_congr {line' : Text} (h : body line = body line')
    (hlines : bodies body lines = bodies body more) :
    bodies body (line :: lines) = bodies body (line' :: more) := by
  rw [bodies_cons, bodies_cons, h, hlines]

theorem Strips.bodies_blank (strips : Strips body) (h : IsBlank line) :
    bodies body line.lines = [] := by
  have hnewline : body ['\n'] = [] := (strips.newline []).trans strips.nil
  have hboth : body ['\r', '\n'] = [] := (strips.newline ['\r']).trans strips.carriageReturn
  rcases h with rfl | rfl
  · simp [Text.lines, bodies, hnewline]
  · simp [Text.lines, bodies, hboth]

theorem Strips.bodies_addsBlankLine (strips : Strips body) (h : AddsBlankLine t t') :
    bodies body t'.lines = bodies body t.lines := by
  obtain ⟨before, blank, after, rfl, rfl, hbefore, hblank⟩ := h
  have hends : EndsLine blank := by
    rcases hblank with rfl | rfl
    · exact .inr rfl
    · exact .inr rfl
  rw [lines_append hbefore, lines_append hends, lines_append hbefore, bodies_append, bodies_append,
    bodies_append, strips.bodies_blank hblank, List.nil_append]

/-- Any number of blank lines may be added. -/
theorem Strips.bodies_addBlankLines (strips : Strips body)
    (h : Relation.ReflTransGen AddsBlankLine t t') :
    bodies body t'.lines = bodies body t.lines := by
  induction h with
  | refl => rfl
  | tail _ hadds ih => rw [strips.bodies_addsBlankLine hadds, ih]

theorem Strips.bodies_concat_newline (strips : Strips body) (t : Text) :
    bodies body (t ++ ['\n']).lines = bodies body t.lines := by
  induction t using lineInduction with
  | last line hline =>
    rw [lines_append_newline hline, lines_of_notMem hline]
    split
    · next h =>
      subst h
      exact strips.bodies_blank (.inl rfl)
    · exact bodies_cons_congr (strips.newline line) rfl
  | ended line rest hline ih =>
    rw [List.append_assoc, List.cons_append, lines_append_newline hline, lines_append_newline hline]
    exact bodies_cons_congr rfl ih

/-- A carriage return may be put before each newline where it does not
change the body of the line. -/
theorem Strips.bodies_crlf (strips : Strips body)
    (h : ∀ line, line ++ ['\n'] ∈ t.lines → '\n' ∉ line → body (line ++ ['\r']) = body line) :
    bodies body t.crlf.lines = bodies body t.lines := by
  induction t using lineInduction with
  | last line hline => rw [crlf_of_notMem hline]
  | ended line rest hline ih =>
    have hcr : '\n' ∉ line ++ ['\r'] := by simp [hline]
    rw [lines_append_newline hline] at h ⊢
    rw [crlf_append_newline hline, lines_append_newline hcr]
    have hbody : body (line ++ ['\r'] ++ ['\n']) = body (line ++ ['\n']) := by
      rw [strips.newline, strips.newline, h line (by simp) hline]
    exact bodies_cons_congr hbody (ih fun l hl => h l (.tail _ hl))

end

end Text

/-! ### Manifests -/

namespace Manifest

theorem Entry.strips_body : Text.Strips Entry.body where
  nil := rfl
  newline line := by simp only [body, Text.trimEnd_concat, decide_true, if_true]
  carriageReturn := rfl

/-- One carriage return is part of the line end. -/
theorem Entry.body_concat_carriageReturn {line : Text}
    (h : ∀ c ∈ line.getLast?, c ≠ '\n' ∧ c ≠ '\r') : body (line ++ ['\r']) = body line := by
  have hplain : body line = line := body_eq_iff.mpr (by simpa using Leaves.plain 0 h)
  have hcr : body (line ++ ['\r']) = line := body_eq_iff.mpr (Leaves.carriageReturn 0 line)
  rw [hplain, hcr]

theorem filterMap_ofLine? (lines : List Text) :
    lines.filterMap Entry.ofLine? = (Text.bodies Entry.body lines).filterMap Entry.ofBody? := by
  induction lines with
  | nil => rfl
  | cons line rest ih =>
    rw [List.filterMap_cons, Entry.ofLine?, ih, Text.bodies_cons]
    split_ifs with hb
    · rw [hb, Entry.ofBody?]
    · rw [List.filterMap_cons]

theorem ofLines_congr {xs ys : List Text}
    (h : Text.bodies Entry.body xs = Text.bodies Entry.body ys) : ofLines xs = ofLines ys := by
  rw [ofLines, ofLines, filterMap_ofLine?, filterMap_ofLine?, h]

theorem load_of_encode {fs : FileSystem} {file t : Text} (h : fs.read file = .ok (Utf8.encode t)) :
    load fs file = .ok (ofLines t.lines) := by
  rw [load, h]
  simp only [Utf8.decode_encode]

end Manifest

/-! ### Repository mappings -/

namespace RepoMapping

/-- All carriage returns are part of the line end. -/
theorem Entry.body_concat {c : Char} (h : c = '\r' ∨ c = '\n') (line : Text) :
    body (line ++ [c]) = body line := by
  rw [body, Text.trimEnd_concat, if_pos (by simpa using h), body]

theorem Entry.strips_body : Text.Strips Entry.body where
  nil := rfl
  newline := body_concat (.inr rfl)
  carriageReturn := rfl

theorem Entry.body_body (line : Text) : body (body line) = body line := by
  obtain ⟨tail, -, -, hlast⟩ := body_eq_iff.mp (rfl : body line = _)
  exact body_eq_iff.mpr ⟨[], (List.append_nil _).symm, by simp, hlast⟩

/-- Nothing but the bodies of the lines is read, so they can be read in place of the lines. -/
theorem addLines_bodies (m : RepoMapping) (lines : List Text) :
    m.addLines (Text.bodies Entry.body lines) = m.addLines lines := by
  induction lines generalizing m with
  | nil => rfl
  | cons line rest ih =>
    have hline : Entry.ofLine (Entry.body line) = Entry.ofLine line := by
      rw [Entry.ofLine, Entry.body_body, Entry.ofLine]
    rw [Text.bodies_cons]
    split_ifs with hb
    · rw [ih, addLines, Entry.ofLine_of_body_eq_nil hb]
    · rw [addLines, addLines, hline]
      split
      · rfl
      · exact ih m
      · exact ih _

theorem ofLines_congr {xs ys : List Text}
    (h : Text.bodies Entry.body xs = Text.bodies Entry.body ys) : ofLines xs = ofLines ys := by
  rw [ofLines, ofLines, ← addLines_bodies, h, addLines_bodies]

theorem load_of_encode {fs : FileSystem} {store : Store} {file t : Text}
    (hl : store.locate? fileName = some file) (hf : fs.isFile file)
    (h : fs.contents file = .ok (Utf8.encode t)) :
    load fs store = ofLines t.lines := by
  rw [load_of_isFile hl hf, h]
  simp only [ofBytes, Utf8.decode_encode]

end RepoMapping

namespace Text

/-! ### Both formats -/

/-- How lines end makes no difference. To put a carriage return before every newline changes
nothing in a manifest that has none there yet, and nothing in any repository mapping, not even what
is wrong with it. In neither format does it matter whether the last line has its newline, and how
many blank lines there are. A line ends at a newline only, whatever other characters stand in it,
also when it is read from a file. -/
theorem lineEndings_immaterial :
    (∀ t : Text, (∀ line ∈ t.lines, ¬ ['\r', '\n'] <:+ line) →
      Manifest.ofLines t.crlf.lines = Manifest.ofLines t.lines) ∧
    (∀ t : Text, RepoMapping.ofLines t.crlf.lines = RepoMapping.ofLines t.lines) ∧
    (∀ t : Text, Manifest.ofLines (t ++ ['\n']).lines = Manifest.ofLines t.lines ∧
      RepoMapping.ofLines (t ++ ['\n']).lines = RepoMapping.ofLines t.lines) ∧
    (∀ t t' : Text, Relation.ReflTransGen AddsBlankLine t t' →
      Manifest.ofLines t'.lines = Manifest.ofLines t.lines ∧
        RepoMapping.ofLines t'.lines = RepoMapping.ofLines t.lines) ∧
    (∀ (t : Text) (lines : List Text), t.lines = lines ↔ IsDivided t lines) ∧
    (∀ fs file t, FileSystem.read fs file = .ok (Utf8.encode t) →
      Manifest.load fs file = .ok (Manifest.ofLines t.lines)) ∧
    ∀ fs store file t, Store.locate? store RepoMapping.fileName = some file → fs.isFile file →
      fs.contents file = .ok (Utf8.encode t) →
        RepoMapping.load fs store = RepoMapping.ofLines t.lines := by
  have manifest := Manifest.Entry.strips_body
  have mapping := RepoMapping.Entry.strips_body
  refine ⟨?_, ?_, ?_, ?_, ?_, ?_, ?_⟩
  · intro t h
    refine Manifest.ofLines_congr (manifest.bodies_crlf fun line hmem hline => ?_)
    refine Manifest.Entry.body_concat_carriageReturn fun c hc => ⟨?_, ?_⟩
    · rintro rfl
      exact hline (List.mem_of_getLast? hc)
    · rintro rfl
      obtain ⟨start, rfl⟩ := List.getLast?_eq_some_iff.mp hc
      exact h _ hmem ⟨start, by simp⟩
  · intro t
    exact RepoMapping.ofLines_congr
      (mapping.bodies_crlf fun line _ _ => RepoMapping.Entry.body_concat (.inl rfl) line)
  · intro t
    exact ⟨Manifest.ofLines_congr (manifest.bodies_concat_newline t),
      RepoMapping.ofLines_congr (mapping.bodies_concat_newline t)⟩
  · intro t t' h
    exact ⟨Manifest.ofLines_congr (manifest.bodies_addBlankLines h),
      RepoMapping.ofLines_congr (mapping.bodies_addBlankLines h)⟩
  · intro t lines
    exact lines_eq_iff
  · intro fs file t h
    exact Manifest.load_of_encode h
  · intro fs store file t hl hf h
    exact RepoMapping.load_of_encode hl hf h

/-- Three lines, of which the last lacks its newline; inside them stand a carriage return, a line
separator and a vertical tab. -/
def threeLines : Text := "a,b\rc,\n\u2028k \x0bv\n e\\sf,,g".toList

/-- The same with a blank line of each kind. -/
def threeLinesApart : Text := "\r\na,b\rc,\n\n\u2028k \x0bv\n e\\sf,,g".toList

/-- The lines are divided at the two newlines, also by the two loaders, and neither
carriage returns before the newlines nor blank lines make a difference; but a second
carriage return does so in a manifest. -/
theorem lineEndings_immaterial_of_threeLines :
    (∀ line ∈ threeLines.lines, ¬ ['\r', '\n'] <:+ line) ∧
      Manifest.ofLines threeLines.crlf.lines = Manifest.ofLines threeLines.lines ∧
      RepoMapping.ofLines threeLines.crlf.lines =
        .error (.malformedMapping "\u2028k \x0bv".toList) ∧
      Relation.ReflTransGen AddsBlankLine threeLines threeLinesApart ∧
      Manifest.ofLines threeLinesApart.lines = Manifest.ofLines threeLines.lines ∧
      threeLines.lines = ["a,b\rc,\n".toList, "\u2028k \x0bv\n".toList, " e\\sf,,g".toList] ∧
      Manifest.load (RepoMapping.mappingAnswers (.ok (Utf8.encode threeLines))) ['m'] =
        .ok (Manifest.ofLines threeLines.lines) ∧
      RepoMapping.load (RepoMapping.mappingAnswers (.ok (Utf8.encode threeLines)))
        RepoMapping.mappingStore = .error (.malformedMapping "\u2028k \x0bv".toList) ∧
      Manifest.ofLines (crlf ['a', '\r', '\n']).lines ≠
        Manifest.ofLines (lines ['a', '\r', '\n']) := by
  obtain ⟨hmanifest, hmapping, -, hblank, hdivided, hload, hloadMapping⟩ := lineEndings_immaterial
  have hplain : ∀ line ∈ threeLines.lines, ¬ ['\r', '\n'] <:+ line := by decide
  have hmalformed : RepoMapping.ofLines threeLines.lines =
      .error (.malformedMapping "\u2028k \x0bv".toList) := by
    rfl
  have happart : Relation.ReflTransGen AddsBlankLine threeLines threeLinesApart := by
    refine .tail (.single ⟨[], ['\r', '\n'], threeLines, rfl, rfl, .inl rfl, .inr rfl⟩) ?_
    exact ⟨"\r\na,b\rc,\n".toList, ['\n'], "\u2028k \x0bv\n e\\sf,,g".toList, by decide, by decide,
      .inr (by decide), .inl rfl⟩
  refine ⟨hplain, hmanifest _ hplain, ?_, happart, (hblank _ _ happart).1, ?_, ?_, ?_, ?_⟩
  · rw [hmapping, hmalformed]
  · exact (hdivided _ _).mpr ⟨by decide, by decide, by decide, by decide⟩
  · exact hload _ ['m'] threeLines rfl
  · rw [hloadMapping _ RepoMapping.mappingStore _ threeLines rfl (by decide) rfl, hmalformed]
  · intro h
    exact absurd (congrArg (Table.find? · ['a']) h) (by decide)

end Text

end BazelRunfiles
