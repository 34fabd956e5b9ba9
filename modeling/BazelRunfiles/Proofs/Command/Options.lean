import BazelRunfiles.Command.Options

/-!
Which options are given. `Flag.IsGiven` reads it off the arguments themselves: one of them is the
name of the option, alone or joined to a value, and no double dash comes before it. The reader goes
by tokens instead, and takes some of them for values. Only words are values, though, so that no
token of an option is lost: whatever is read without a mistake has a value for a location exactly if
its option is given (`isSome_location?_iff`), and the source repository is the main one unless its
option is (`source_of_not_isGiven`).
-/

namespace BazelRunfiles

namespace Command

namespace Flag

variable {f : Flag} {t : Text}

/-- Whether an option is given: by its name, alone or joined to a value, before any double dash. -/
def IsGiven (f : Flag) (arguments : List Text) : Prop :=
  ∃ t ∈ arguments.takeWhile (· ≠ ['-', '-']),
    ∃ name ∈ f.names, t = name.toList ∨ name.toList ++ ['='] <+: t

instance (f : Flag) (arguments : List Text) : Decidable (f.IsGiven arguments) :=
  inferInstanceAs (Decidable (∃ t ∈ _, ∃ name ∈ _, _))

/-- Whether the option names a location. -/
def isLocation : Flag → Bool
  | .manifestFile | .runfilesDir => true
  | _ => false

theorem takesValue_of_isLocation (h : f.isLocation) : f.takesValue := by
  cases f <;> first | rfl | cases h

theorem ofName?_eq_some_iff : ofName? t = some f ↔ ∃ name ∈ f.names, name.toList = t := by
  constructor
  · intro h
    simpa using List.find?_some h
  · rintro ⟨name, hn, rfl⟩
    have h : ∀ f ∈ all, ∀ name ∈ f.names, ofName? name.toList = some f := by decide
    exact h f (by cases f <;> decide) name hn

theorem equals_notMem_name {name : String} (h : name ∈ f.names) : '=' ∉ name.toList := by
  have hall : ∀ f ∈ all, ∀ name ∈ f.names, '=' ∉ name.toList := by decide
  exact hall f (by cases f <;> decide) name h

theorem dashes_prefix_name {name : String} (hf : f.takesValue) (h : name ∈ f.names) :
    ['-', '-'] <+: name.toList := by
  have hall : ∀ f ∈ all, f.takesValue → ∀ name ∈ f.names, ['-', '-'] <+: name.toList := by decide
  exact hall f (by cases f <;> decide) hf name h

end Flag

namespace Token

variable {f : Flag} {t : Text} {token : Token}

theorem eq_help_of_lettered? (h : lettered? t = some token) :
    ∃ attached, token = .flag .help attached := by
  have hletters (behind : Text) : ∃ attached, letters behind = .flag .help attached := by
    unfold letters
    split <;> exact ⟨_, rfl⟩
  unfold lettered? at h
  split at h <;> cases h
  · exact ⟨_, rfl⟩
  · exact hletters _
  · exact hletters _

/-- Where a name is joined to a value, the first equals sign ends the name. -/
theorem attached?_eq_some_iff :
    attached? t = some token ↔
      ∃ f, ∃ name ∈ f.names, ∃ value, t = name.toList ++ '=' :: value ∧
        token = .flag f (some value) := by
  constructor
  · intro h
    unfold attached? at h
    split at h
    · next he =>
      obtain ⟨f, hf, rfl⟩ := Option.map_eq_some_iff.mp h
      obtain ⟨name, hn, hname⟩ := Flag.ofName?_eq_some_iff.mp hf
      exact ⟨f, name, hn, (t.cut '=').2, by rw [hname, Text.append_cut he], rfl⟩
    · cases h
  · rintro ⟨f, name, hn, value, rfl, rfl⟩
    have hcut := Text.cut_append_cons (Flag.equals_notMem_name hn) value
    have hf : Flag.ofName? name.toList = some f := Flag.ofName?_eq_some_iff.mpr ⟨name, hn, rfl⟩
    simp [attached?, hcut, hf]

/-- An argument is taken for an option with a value if and only if it is one of the names of the
option, alone or joined to a value. -/
theorem exists_ofText_eq_flag_iff (hf : f.takesValue) :
    (∃ attached, ofText t = .flag f attached) ↔
      ∃ name ∈ f.names, t = name.toList ∨ name.toList ++ ['='] <+: t := by
  constructor
  · rintro ⟨attached, h⟩
    unfold ofText at h
    split at h
    · cases h
    split at h
    · next hname =>
      cases h
      obtain ⟨name, hn, rfl⟩ := Flag.ofName?_eq_some_iff.mp hname
      exact ⟨name, hn, .inl rfl⟩
    split at h
    · cases h
    split at h
    · next hl =>
      -- help takes no value
      obtain ⟨_, rfl⟩ := eq_help_of_lettered? hl
      cases h
      cases hf
    split at h
    · next ha =>
      obtain ⟨g, name, hn, value, rfl, rfl⟩ := attached?_eq_some_iff.mp ha
      cases h
      exact ⟨name, hn, .inr ⟨value, by simp⟩⟩
    · split at h <;> cases h
  · rintro ⟨name, hn, h⟩
    obtain ⟨rest, hr⟩ := Flag.dashes_prefix_name hf hn
    obtain rfl | ⟨value, rfl⟩ := h
    · have hname : Flag.ofName? name.toList = some f := Flag.ofName?_eq_some_iff.mpr ⟨name, hn, rfl⟩
      have hhead : name.toList.head? = some '-' := by rw [← hr]; rfl
      exact ⟨none, by simp [ofText, hhead, hname]⟩
    · have hname : Flag.ofName? (name.toList ++ ['='] ++ value) = none := by
        rw [Option.eq_none_iff_forall_ne_some]
        intro g hg
        obtain ⟨other, ho, heq⟩ := Flag.ofName?_eq_some_iff.mp hg
        exact Flag.equals_notMem_name ho (by simp [heq])
      have hattached : attached? (name.toList ++ ['='] ++ value) = some (.flag f (some value)) :=
        attached?_eq_some_iff.mpr ⟨f, name, hn, value, by simp, rfl⟩
      rw [← hr] at hname hattached ⊢
      have hlettered : lettered? (['-', '-'] ++ rest ++ ['='] ++ value) = none := rfl
      refine ⟨some value, ?_⟩
      unfold ofText
      rw [hname, hlettered, hattached]
      simp

/-- Only what stands before the first double dash is told apart. -/
theorem exists_flag_mem_ofArguments_iff (hf : f.takesValue) (arguments : List Text) :
    (∃ attached, .flag f attached ∈ ofArguments arguments) ↔ f.IsGiven arguments := by
  induction arguments with
  | nil => simp [ofArguments, Flag.IsGiven]
  | cons t rest ih =>
    rw [ofArguments]
    by_cases ht : t = ['-', '-']
    · simp [ht, Flag.IsGiven]
    · have hgiven : f.IsGiven (t :: rest) ↔
          (∃ name ∈ f.names, t = name.toList ∨ name.toList ++ ['='] <+: t) ∨ f.IsGiven rest := by
        simp [Flag.IsGiven, ht]
      rw [hgiven, ← ih, ← exists_ofText_eq_flag_iff hf, ← exists_or, if_neg ht]
      simp only [List.mem_cons, eq_comm]

end Token

namespace Options

/-- The location that an option of its kind names, if it is given. -/
def location? (o : Options) : Flag → Option Value
  | .manifestFile => o.manifestFile
  | .runfilesDir => o.runfilesDir
  | _ => .none

variable {f : Flag}

theorem location?_set (o : Options) (value : Value) (g : Flag) (hf : f.isLocation) :
    (o.set value g).location? f = if f = g then some value else o.location? f := by
  cases f <;> cases hf <;> cases g <;> rfl

theorem location?_turnOn (o : Options) (g : Flag) : (o.turnOn g).location? f = o.location? f := by
  cases f <;> cases g <;> rfl

theorem source_set_of_ne (o : Options) (value : Value) {g : Flag} (hg : g ≠ .source) :
    (o.set value g).source = o.source := by
  cases g <;> first | rfl | exact absurd rfl hg

theorem source_turnOn (o : Options) (g : Flag) : (o.turnOn g).source = o.source := by
  cases g <;> rfl

end Options

namespace Reading

variable {r : Reading} {f : Flag} {tokens : List Token} {o : Options}

/-! ### What one token does to the locations -/

theorem options_endGroup (r : Reading) : r.endGroup.options = r.options := by
  unfold endGroup
  split <;> rfl

theorem location?_word (r : Reading) (t : Text) (f : Flag) :
    (r.word t).options.location? f = r.options.location? f := by
  unfold word
  split
  · rfl
  · cases f <;> rfl

theorem location?_dashes (r : Reading) (f : Flag) :
    r.dashes.options.location? f = r.options.location? f := by
  unfold dashes
  split <;> rfl

theorem location?_unknown (r : Reading) (t : Text) (f : Flag) :
    (r.unknown t).options.location? f = r.options.location? f := by
  rw [unknown, options_endGroup]

theorem location?_turnOn (r : Reading) (g f : Flag) :
    (r.turnOn g).options.location? f = r.options.location? f :=
  Options.location?_turnOn r.options g

theorem location?_set (r : Reading) (g : Flag) (value : Value) (hf : f.isLocation) :
    (r.set g value).options.location? f = if f = g then some value else r.options.location? f :=
  Options.location?_set r.options value g hf

theorem options_of_request (h : r.request = .run o) : r.options = o := by
  unfold request at h
  split at h
  · cases h
  · split at h <;> cases h
    rfl

/-- Reading goes on to the last token with no location forgotten. -/
theorem isSome_location?_of_read (hf : f.isLocation) (h : r.read tokens = .run o) :
    (o.location? f).isSome ↔
      (r.options.location? f).isSome ∨ ∃ attached, .flag f attached ∈ tokens := by
  have hvalue := Flag.takesValue_of_isLocation hf
  fun_induction Reading.read r tokens with
  | case1 r => simp [options_of_request h]
  | case2 r t rest ih => simp [ih h, location?_word]
  | case3 r rest ih => simp [ih h, location?_dashes]
  | case4 r t rest ih => simp [ih h, location?_unknown]
  | case5 r g value rest hg ih =>
    simp only [ih h, location?_set r g _ hf]
    by_cases hfg : f = g <;> simp [hfg]
  | case6 => cases h
  | case7 r g value rest hg ih =>
    simp only [ih h, location?_set r g _ hf]
    by_cases hfg : f = g <;> simp [hfg]
  | case8 => cases h
  | case9 r g value rest hg hhelp ih =>
    -- an option without a value names no location
    have hfg : f ≠ g := fun e => hg (e ▸ hvalue)
    simp [ih h, location?_word, location?_turnOn, hfg]
  | case10 => cases h
  | case11 => cases h
  | case12 r g rest hword hg hhelp ih =>
    have hfg : f ≠ g := fun e => hg (e ▸ hvalue)
    simp [ih h, location?_turnOn, hfg]

/-! ### What is left alone -/

/-- Reading keeps what each token keeps, and ends with the test whether anything is amiss. -/
theorem exists_last_of_read {P : Reading → Prop} (h : r.read tokens = .run o) (start : P r)
    (word : ∀ r t, P r → P (r.word t)) (dashes : ∀ r, P r → P r.dashes)
    (unknown : ∀ r t, P r → P (r.unknown t))
    (set : ∀ r g attached value, .flag g attached ∈ tokens → P r → P (r.set g value))
    (turnOn : ∀ r g, P r → P (r.turnOn g)) : ∃ last, last.request = .run o ∧ P last := by
  fun_induction Reading.read r tokens with
  | case1 r => exact ⟨r, h, start⟩
  | case2 r t rest ih => exact ih h (word r t start) fun s g a v hm => set s g a v (.tail _ hm)
  | case3 r rest ih => exact ih h (dashes r start) fun s g a v hm => set s g a v (.tail _ hm)
  | case4 r t rest ih => exact ih h (unknown r t start) fun s g a v hm => set s g a v (.tail _ hm)
  | case5 r g value rest hg ih =>
    exact ih h (set r g _ _ (.head _) start) fun s g a v hm => set s g a v (.tail _ hm)
  | case6 => cases h
  | case7 r g value rest hg ih =>
    exact ih h (set r g _ _ (.head _) start) fun s g a v hm => set s g a v (.tail _ (.tail _ hm))
  | case8 => cases h
  | case9 r g value rest hg hhelp ih =>
    exact ih h (word _ _ (turnOn r g start)) fun s g a v hm => set s g a v (.tail _ (.tail _ hm))
  | case10 => cases h
  | case11 => cases h
  | case12 r g rest hword hg hhelp ih =>
    exact ih h (turnOn r g start) fun s g a v hm => set s g a v (.tail _ hm)

theorem source_word (r : Reading) (t : Text) : (r.word t).options.source = r.options.source := by
  rw [word]
  split <;> rfl

theorem source_dashes (r : Reading) : r.dashes.options.source = r.options.source := by
  rw [dashes]
  split <;> rfl

theorem source_unknown (r : Reading) (t : Text) :
    (r.unknown t).options.source = r.options.source := by
  rw [unknown, options_endGroup]

/-- The source repository stays what it is if no token is its option. -/
theorem source_of_read (h : r.read tokens = .run o)
    (hs : ∀ attached, .flag .source attached ∉ tokens) : o.source = r.options.source := by
  obtain ⟨last, hlast, hsource⟩ :=
    exists_last_of_read (P := fun s => s.options.source = r.options.source) h rfl
      (fun s t kept => (source_word s t).trans kept)
      (fun s kept => (source_dashes s).trans kept)
      (fun s t kept => (source_unknown s t).trans kept)
      (fun s g attached value hm kept =>
        have hne : g ≠ .source := fun e => hs attached (e ▸ hm)
        (Options.source_set_of_ne s.options value hne).trans kept)
      (fun s g kept => (Options.source_turnOn s.options g).trans kept)
  rw [← options_of_request hlast, hsource]

/-- Without `--env`, what is read has paths. -/
theorem paths_ne_nil_of_read (h : r.read tokens = .run o) (hpaths : ¬ o.childVariables) :
    o.paths ≠ [] := by
  obtain ⟨last, hlast, -⟩ :=
    exists_last_of_read (P := fun _ => True) h trivial (by simp) (by simp) (by simp) (by simp)
      (by simp)
  obtain rfl := options_of_request hlast
  intro hnil
  rw [request] at hlast
  split at hlast
  · cases hlast
  · rw [if_pos ⟨hpaths, hnil⟩] at hlast
    cases hlast

end Reading

/-- Arguments that are accepted leave a value for a location exactly if its option is given. -/
theorem isSome_location?_iff {f : Flag} {arguments : List Text} {o : Options} (hf : f.isLocation)
    (h : Request.ofArguments arguments = .run o) :
    (o.location? f).isSome ↔ f.IsGiven arguments := by
  rw [← Token.exists_flag_mem_ofArguments_iff (Flag.takesValue_of_isLocation hf),
    Reading.isSome_location?_of_read hf h]
  cases f <;> simp [Reading.start, Options.none, Options.location?]

theorem source_of_not_isGiven {arguments : List Text} {o : Options}
    (h : Request.ofArguments arguments = .run o) (hs : ¬ Flag.IsGiven .source arguments) :
    o.source = .text [] := by
  rw [← Token.exists_flag_mem_ofArguments_iff rfl, not_exists] at hs
  exact Reading.source_of_read h hs

theorem paths_ne_nil {arguments : List Text} {o : Options}
    (h : Request.ofArguments arguments = .run o) (hpaths : ¬ o.childVariables) : o.paths ≠ [] := by
  exact Reading.paths_ne_nil_of_read h hpaths

end Command

end BazelRunfiles
