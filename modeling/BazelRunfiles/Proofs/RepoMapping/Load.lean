import BazelRunfiles.Proofs.RepoMapping.Lookup
import BazelRunfiles.Proofs.Text.Lines
import BazelRunfiles.Proofs.Text.Utf8.Fault
import BazelRunfiles.Store

/-!
Loading a repository mapping. The bytes of the file are those of a text and what follows it, and
`Precedence` says which of the things that are wrong with them counts. A character that is broken
off counts before any line. If there is none, the first malformed line counts among those that a
newline ends; after that it counts that the bytes end inside a character; and only then the last
line, which lacks its newline. The first two bytes of a surrogate at the end are seen as late as an
end inside a character, although they begin none.
-/

namespace BazelRunfiles

/-! ### Lines that a newline ends -/

namespace Text

/-- The lines of a text that a newline ends. -/
def completeLines (t : Text) : List Text := t.lines.filter fun line => line.getLast? = some '\n'

/-- Only the last line can lack a newline. -/
theorem exists_lines_eq (t : Text) :
    ∃ last, '\n' ∉ last ∧ lines t = completeLines t ++ if last = [] then [] else [last] := by
  induction t using lineInduction with
  | last line hline =>
    have hdropped : completeLines line = [] := by
      rw [completeLines, lines_of_notMem hline, List.filter_eq_nil_iff]
      intro l hl
      split at hl
      · cases hl
      · obtain rfl := List.mem_singleton.mp hl
        exact fun hc => hline (List.mem_of_getLast? (decide_eq_true_iff.mp hc))
    exact ⟨line, hline, by rw [hdropped, lines_of_notMem hline, List.nil_append]⟩
  | ended line rest hline ih =>
    obtain ⟨last, hlast, hl⟩ := ih
    have hkept : completeLines (line ++ '\n' :: rest) = (line ++ ['\n']) :: completeLines rest := by
      rw [completeLines, lines_append_newline hline, List.filter_cons_of_pos (by simp)]
      rfl
    exact ⟨last, hlast, by rw [hkept, lines_append_newline hline, hl, List.cons_append]⟩

end Text

namespace RepoMapping

open Utf8

variable {file t left : Text} {lines : List Text} {bytes : List UInt8} {fault : Fault}

/-! ### What is wrong with the bytes -/

theorem ofLines_eq_malformed (h : FirstOf Entry.Malformed lines left) :
    ofLines lines = .error (.malformedMapping left) := ofLines_eq_error_iff.mpr ⟨left, h, rfl⟩

/-- A line that a newline ends is found before one that lacks it. -/
theorem ofLines_of_completeLines (h : FirstOf Entry.Malformed t.completeLines left) :
    ofLines t.lines = .error (.malformedMapping left) := by
  obtain ⟨last, -, hl⟩ := Text.exists_lines_eq t
  rw [hl]
  exact ofLines_eq_malformed (h.append _)

theorem ofLines_of_not_anyOf (h : ¬ AnyOf Entry.Malformed lines) : ∃ m, ofLines lines = .ok m :=
  ⟨_, ofLines_eq_ok_iff.mpr ⟨h, rfl⟩⟩

/-- A fault that is seen before the end counts before any line. -/
theorem ofBytes_of_fault (hd : decode bytes = ⟨t, some fault⟩) (hf : fault.isAtEnd = false) :
    ofBytes file bytes = .error (.undecodableMapping file fault) := by
  have hnothing : ofLines [] = .ok empty := rfl
  have hend : ¬ fault.isAtEnd := by simp [hf]
  simp only [ofBytes, hd, if_neg hend, hnothing]

/-- A fault that is seen at the end counts after the lines that a newline ends. -/
theorem ofBytes_of_fault_at_end (hd : decode bytes = ⟨t, some fault⟩) (hf : fault.isAtEnd) :
    (∀ left, FirstOf Entry.Malformed t.completeLines left →
      ofBytes file bytes = .error (.malformedMapping left)) ∧
    (¬ AnyOf Entry.Malformed t.completeLines →
      ofBytes file bytes = .error (.undecodableMapping file fault)) := by
  unfold Text.completeLines
  refine ⟨fun left h => ?_, fun h => ?_⟩
  · simp only [ofBytes, hd, if_pos hf, ofLines_eq_malformed h]
  · obtain ⟨m, hm⟩ := ofLines_of_not_anyOf h
    simp only [ofBytes, hd, if_pos hf, hm]

/-! ### What counts -/

/-- The mapping is no UTF-8, for the given reason. -/
def Undecodable (file : Text) (reason : String) (result : Except Error RepoMapping) : Prop :=
  ∃ fault, result = .error (.undecodableMapping file fault) ∧ fault.message = reason

/-- What is made of bytes, where those of a text come first and `rest` follows them. -/
structure Precedence (file t : Text) (rest : List UInt8) (result : Except Error RepoMapping) :
    Prop where
  /-- A character is broken off, and that is not seen at the end only. -/
  broken : ∀ start b more, rest = start ++ b :: more → Breaks start b → ¬ IsHalfSurrogate rest →
    Undecodable file (if start = [] then "invalid start byte" else "invalid continuation byte")
      result
  /-- A line that a newline ends is malformed. -/
  malformed : IsUnfinished rest ∨ IsHalfSurrogate rest →
    ∀ left, FirstOf Entry.Malformed t.completeLines left → result = .error (.malformedMapping left)
  /-- The bytes end inside a character. -/
  unfinished : IsUnfinished rest → rest ≠ [] → ¬ AnyOf Entry.Malformed t.completeLines →
    Undecodable file "unexpected end of data" result
  /-- The bytes end inside a surrogate. -/
  halfSurrogate : IsHalfSurrogate rest → ¬ AnyOf Entry.Malformed t.completeLines →
    Undecodable file "invalid continuation byte" result
  /-- There are only the lines. -/
  complete : rest = [] → result = ofLines t.lines

theorem precedence_ofBytes (file t : Text) (rest : List UInt8) :
    Precedence file t rest (ofBytes file (encode t ++ rest)) := by
  -- Behind the text the reader finds the fault of `rest`.
  have hd {fault : Fault} (h : decode rest = ⟨[], some fault⟩) :
      decode (encode t ++ rest) = ⟨t, some fault⟩ := by
    rw [decode_encode_append, h, List.append_nil]
  refine ⟨?broken, ?malformed, ?unfinished, ?halfSurrogate, ?complete⟩
  case broken =>
    rintro start b more rfl hb hs
    refine ⟨_, ofBytes_of_fault (hd (decode_of_breaks hb hs)) ?_, ?_⟩ <;> split <;> rfl
  case malformed =>
    rintro (hu | hs) left hl
    · by_cases hr : rest = []
      · rw [hr, List.append_nil, ofBytes, decode_encode]
        exact ofLines_of_completeLines hl
      · exact (ofBytes_of_fault_at_end (hd (decode_of_isUnfinished hu hr)) rfl).1 left hl
    · exact (ofBytes_of_fault_at_end (hd (decode_of_isHalfSurrogate hs)) rfl).1 left hl
  case unfinished =>
    intro hu hr hl
    exact ⟨_, (ofBytes_of_fault_at_end (hd (decode_of_isUnfinished hu hr)) rfl).2 hl, rfl⟩
  case halfSurrogate =>
    intro hs hl
    exact ⟨_, (ofBytes_of_fault_at_end (hd (decode_of_isHalfSurrogate hs)) rfl).2 hl, rfl⟩
  case complete =>
    rintro rfl
    rw [List.append_nil, ofBytes, decode_encode]

theorem load_of_isFile {fs : FileSystem} {store : Store} (hl : store.locate? fileName = some file)
    (hf : fs.isFile file) :
    load fs store = match fs.contents file with
      | .error reason => .error (.unreadableMapping file reason)
      | .ok bytes => ofBytes file bytes := by
  have hthere : ¬ (file = [] ∨ ¬ fs.isFile file) := by
    simp only [hf, not_true_eq_false, or_false]
    exact FileSystem.ne_nil_of_isFile hf
  unfold load
  rw [hl]
  exact if_neg hthere

/-- What a repository mapping is loaded as. A store without the file has the empty mapping, and a
file that cannot be read has none. Of a file that can be read the bytes decide, whatever they are:
they begin with those of a text, and behind it there is nothing, the beginning of a character, or a
character that is broken off. -/
theorem load_precedence (fs : FileSystem) (store : Store) :
    ((∀ file, store.locate? fileName = some file → fs.isFile file = false) →
      load fs store = .ok empty) ∧
    ∀ file, store.locate? fileName = some file → fs.isFile file →
      (∀ reason, fs.contents file = .error reason →
        load fs store = .error (.unreadableMapping file reason)) ∧
      ∀ bytes, fs.contents file = .ok bytes →
        (∀ t rest, bytes = encode t ++ rest → Precedence file t rest (load fs store)) ∧
        ∃ t rest, bytes = encode t ++ rest ∧
          (IsUnfinished rest ∨ ∃ start b more, rest = start ++ b :: more ∧ Breaks start b) := by
  refine ⟨?absent, fun file hl hf => ⟨?unreadable, ?readable⟩⟩
  case absent =>
    intro h
    unfold load
    split
    · rfl
    · next file hl => rw [if_pos (.inr (by simp [h file hl]))]
  case unreadable =>
    intro reason hc
    rw [load_of_isFile hl hf, hc]
  case readable =>
    intro bytes hc
    refine ⟨?_, exists_text_and_rest bytes⟩
    rintro t rest rfl
    rw [load_of_isFile hl hf, hc]
    exact precedence_ofBytes file t rest

/-- A directory in which only the repository mapping is there, and what the
system answers when it is read. -/
def mappingAnswers (answer : Except Reason (List UInt8)) : FileSystem where
  workingDirectory := "/".toList
  kind? name := if name = "d/_repo_mapping".toList then some .file else none
  contents _ := answer
  target? _ := none
  kind?_nil := by decide

/-- A directory for these files. -/
def mappingStore : Store := .directory "d".toList

theorem firstOf_of_findSome? (h : lines.findSome? Entry.malformed? = some left) :
    FirstOf Entry.Malformed lines left :=
  (findSome?_eq_some_iff_firstOf Entry.malformed?_eq_some_iff).mp h

theorem not_anyOf_of_findSome? (h : lines.findSome? Entry.malformed? = none) :
    ¬ AnyOf Entry.Malformed lines :=
  (findSome?_eq_none_iff_not_anyOf Entry.malformed?_eq_some_iff).mp h

/-- Behind a malformed line a byte that begins no character; behind a malformed line and behind an
unfinished one the beginning of a character; behind a line the beginning of a surrogate; an
unfinished line alone; a file that cannot be read; and none. -/
theorem load_of_mappingAnswers :
    Undecodable "d/_repo_mapping".toList "invalid start byte"
        (load (mappingAnswers (.ok (encode "bad\n".toList ++ [0xFF]))) mappingStore) ∧
      load (mappingAnswers (.ok (encode "bad\n".toList ++ [0xC3]))) mappingStore =
        .error (.malformedMapping "bad".toList) ∧
      Undecodable "d/_repo_mapping".toList "unexpected end of data"
        (load (mappingAnswers (.ok (encode "a,b,c\nbad".toList ++ [0xC3]))) mappingStore) ∧
      Undecodable "d/_repo_mapping".toList "invalid continuation byte"
        (load (mappingAnswers (.ok (encode "a,b,c\n".toList ++ [0xED, 0xA0]))) mappingStore) ∧
      load (mappingAnswers (.ok (encode "a,b,c".toList ++ []))) mappingStore =
        ofLines ["a,b,c".toList] ∧
      load (mappingAnswers (.error .inputOutput)) mappingStore =
        .error (.unreadableMapping "d/_repo_mapping".toList .inputOutput) ∧
      load (mappingAnswers (.error .inputOutput)) (.directory "e".toList) = .ok empty := by
  have hthere (answer : Except Reason (List UInt8)) :
      (mappingAnswers answer).isFile "d/_repo_mapping".toList = true := rfl
  have hread (t : Text) (rest : List UInt8) :=
    (((load_precedence (mappingAnswers (.ok (encode t ++ rest))) mappingStore).2
      "d/_repo_mapping".toList rfl (hthere _)).2 (encode t ++ rest) rfl).1 t rest rfl
  have hbegun : IsUnfinished [0xC3] := (UnderWay.first rfl).isUnfinished
  refine ⟨?_, ?_, ?_, ?_, ?_, ?_, ?_⟩
  · have hb : Breaks [] 0xFF := breaks_nil_iff.mpr ⟨by decide, rfl⟩
    have hs : ¬ IsHalfSurrogate [0xFF] := by
      rintro ⟨b, ⟨⟩, -⟩
    exact (hread "bad\n".toList [0xFF]).broken [] 0xFF [] rfl hb hs
  · exact (hread "bad\n".toList [0xC3]).malformed (.inl hbegun) _ (firstOf_of_findSome? (by decide))
  · exact (hread "a,b,c\nbad".toList [0xC3]).unfinished hbegun (by decide)
      (not_anyOf_of_findSome? (by decide))
  · exact (hread "a,b,c\n".toList [0xED, 0xA0]).halfSurrogate ⟨0xA0, rfl, by decide, by decide⟩
      (not_anyOf_of_findSome? (by decide))
  · exact (hread "a,b,c".toList []).complete rfl
  · exact ((load_precedence (mappingAnswers (.error .inputOutput)) mappingStore).2
      "d/_repo_mapping".toList rfl (hthere _)).1 .inputOutput rfl
  · refine (load_precedence (mappingAnswers (.error .inputOutput)) (.directory "e".toList)).1 ?_
    rintro _ ⟨⟩
    decide

/-- Behind a malformed line the first two bytes of a surrogate: the second of them breaks off what
the first one has begun, and yet the line counts. -/
theorem load_of_halfSurrogate :
    Breaks [0xED] 0xA0 ∧
      mappingStore.locate? fileName = some "d/_repo_mapping".toList ∧
      (mappingAnswers (.ok (encode "bad\n".toList ++ [0xED, 0xA0]))).isFile
        "d/_repo_mapping".toList ∧
      (mappingAnswers (.ok (encode "bad\n".toList ++ [0xED, 0xA0]))).contents
        "d/_repo_mapping".toList = .ok (encode "bad\n".toList ++ ([0xED] ++ [0xA0])) ∧
      load (mappingAnswers (.ok (encode "bad\n".toList ++ [0xED, 0xA0]))) mappingStore =
        .error (.malformedMapping "bad".toList) ∧
      ¬ ∃ reason, Undecodable "d/_repo_mapping".toList reason
        (load (mappingAnswers (.ok (encode "bad\n".toList ++ [0xED, 0xA0]))) mappingStore) := by
  have hs : IsHalfSurrogate [0xED, 0xA0] := ⟨0xA0, rfl, by decide, by decide⟩
  obtain ⟨_, ⟨⟩, hb⟩ := hs.exists_breaks
  have hload : load (mappingAnswers (.ok (encode "bad\n".toList ++ [0xED, 0xA0]))) mappingStore =
      .error (.malformedMapping "bad".toList) := by
    rw [load_of_isFile rfl (by decide)]
    exact (precedence_ofBytes _ "bad\n".toList [0xED, 0xA0]).malformed (.inr hs) _
      (firstOf_of_findSome? (by decide))
  refine ⟨hb, rfl, by decide, rfl, hload, ?_⟩
  rintro ⟨reason, fault, h, -⟩
  cases hload.symm.trans h

end RepoMapping

end BazelRunfiles
