import DocFilter.Proofs.Predicates

/-!
# Which fields code can name

Any text at all can be the path of a field, by way of an alias, and code is
made of it only if each segment between its dots is an **identifier** or an
**index**. Both are said here character by character, and the segments are
those of `List.splitOn`, so that nothing of the renderer is needed to tell
what it does: which fields have code (`exists_path_iff`), what that code
looks like (`path_eq_ok_iff`), and what becomes of the rest
(`path_eq_error_iff`).

With what can be read back from code this gives `path_invertible`: the
code of a field holds harmless characters only, and no two fields have the
same; nor do two tests of a type or of a length.
-/

namespace DocFilter

/-- The segments of a text are what splitting it at the separator gives. -/
theorem Text.segments_eq_splitOn (separator : Char) (cs : List Char) :
    segments separator cs = cs.splitOn separator := by
  induction cs with
  | nil => rfl
  | cons c cs ih =>
    rw [List.splitOn_eq_splitOnP] at ih ⊢
    rw [segments, List.splitOnP_cons_eq_if_modifyHead, ← ih]
    by_cases hc : c = separator
    · rw [if_pos hc, if_pos (beq_iff_eq.mpr hc)]
    · rw [if_neg hc, if_neg (fun h => hc (beq_iff_eq.mp h))]
      cases hs : segments separator cs with
      | nil => exact absurd hs (segments_ne_nil separator cs)
      | cons s rest => rfl

namespace Predicate

/-! ## Segments -/

/-- **An identifier**: an ASCII letter, `_` or `$`, and after it any of
these and ASCII digits. -/
inductive IsIdentifier : List Char → Prop where
  /-- The first character and the others. -/
  | mk {c : Char} {cs : List Char} (hc : c.isAlpha = true ∨ c = '_' ∨ c = '$')
    (hcs : ∀ d ∈ cs, d.isAlphanum = true ∨ d = '_' ∨ d = '$') : IsIdentifier (c :: cs)

/-- **An index**: ASCII digits, at least one. -/
structure IsIndex (segment : List Char) : Prop where
  /-- There is a digit. -/
  ne_nil : segment ≠ []
  /-- There is nothing else. -/
  digits : ∀ c ∈ segment, c.isDigit = true

theorem isIdentifier_iff {segment : List Char} :
    isIdentifier segment = true ↔ IsIdentifier segment := by
  cases segment with
  | nil =>
    refine ⟨fun h => ?_, fun h => ?_⟩
    · cases h
    · cases h
  | cons c cs =>
    have hbool : isIdentifier (c :: cs) = true ↔ (c.isAlpha = true ∨ c = '_' ∨ c = '$')
        ∧ ∀ d ∈ cs, d.isAlphanum = true ∨ d = '_' ∨ d = '$' := by
      simp [isIdentifier, isIdentifierStart, isIdentifierChar, or_assoc]
    rw [hbool]
    constructor
    · rintro ⟨hc, hcs⟩
      exact .mk hc hcs
    · rintro ⟨hc, hcs⟩
      exact ⟨hc, hcs⟩

theorem isIndex_iff {segment : List Char} : isIndex segment = true ↔ IsIndex segment := by
  have hbool : isIndex segment = true ↔ segment ≠ [] ∧ ∀ c ∈ segment, c.isDigit = true := by
    simp [isIndex]
  rw [hbool]
  constructor
  · rintro ⟨hne, hdigits⟩
    exact ⟨hne, hdigits⟩
  · rintro ⟨hne, hdigits⟩
    exact ⟨hne, hdigits⟩

/-- No identifier starts with a digit. -/
theorem isIdentifierStart_of_isDigit {c : Char} (h : c.isDigit = true) :
    isIdentifierStart c = false := by
  have hten : ∀ k : Fin 10, isIdentifierStart (Char.ofNat (48 + k)) = false := by decide
  have hrange : 48 ≤ c.toNat ∧ c.toNat ≤ 57 := Char.isDigit_iff_toNat.mp h
  have hc : Char.ofNat (48 + (c.toNat - 48)) = c := by
    rw [Nat.add_sub_cancel' hrange.1, Char.ofNat_toNat]
  rw [← hc]
  exact hten ⟨c.toNat - 48, by omega⟩

/-- So an index is not an identifier. -/
theorem IsIndex.isIdentifier_eq_false {segment : List Char} (h : IsIndex segment) :
    isIdentifier segment = false := by
  cases segment with
  | nil => rfl
  | cons c cs =>
    rw [isIdentifier, isIdentifierStart_of_isDigit (h.digits c List.mem_cons_self),
      Bool.false_and]

/-! ## Members -/

/-- **How code goes down a segment**: an identifier after a dot, an index
in brackets. -/
inductive Member : List Char → List Char → Prop where
  /-- A member by its name. -/
  | name {segment : List Char} (h : IsIdentifier segment) : Member segment ('.' :: segment)
  /-- A member by its number. -/
  | index {segment : List Char} (h : IsIndex segment) : Member segment ('[' :: segment ++ [']'])

theorem memberChars_eq_some_iff {segment cs : List Char} :
    memberChars segment = some cs ↔ Member segment cs := by
  constructor
  · intro h
    rcases memberChars_cases h with ⟨hi, rfl⟩ | ⟨hi, rfl⟩
    · exact .name (isIdentifier_iff.mp hi)
    · exact .index (isIndex_iff.mp hi)
  · intro h
    cases h with
    | name hi => rw [memberChars, if_pos (isIdentifier_iff.mpr hi)]
    | index hi =>
      rw [memberChars, hi.isIdentifier_eq_false, if_neg Bool.false_ne_true,
        if_pos (isIndex_iff.mpr hi)]

/-- Code can go down identifiers and indices, and nothing else. -/
theorem memberChars_ne_none_iff {segment : List Char} :
    memberChars segment ≠ none ↔ IsIdentifier segment ∨ IsIndex segment := by
  rw [Option.ne_none_iff_exists']
  constructor
  · rintro ⟨cs, hcs⟩
    cases memberChars_eq_some_iff.mp hcs with
    | name hi => exact .inl hi
    | index hi => exact .inr hi
  · rintro (hi | hi)
    · exact ⟨_, memberChars_eq_some_iff.mpr (.name hi)⟩
    · exact ⟨_, memberChars_eq_some_iff.mpr (.index hi)⟩

/-- **A chain goes down its segments one by one.** -/
theorem chainChars_eq_some_iff {segments : List (List Char)} {cs : List Char} :
    chainChars segments = some cs
      ↔ ∃ members, List.Forall₂ Member segments members ∧ cs = members.flatten := by
  induction segments generalizing cs with
  | nil => simp [chainChars, eq_comm]
  | cons segment rest ih =>
    constructor
    · intro h
      obtain ⟨member, more, hm, hr, rfl⟩ := chainChars_cons_eq_some h
      obtain ⟨members, hmembers, rfl⟩ := ih.mp hr
      exact ⟨member :: members, .cons (memberChars_eq_some_iff.mp hm) hmembers, rfl⟩
    · rintro ⟨_, hmembers, rfl⟩
      cases hmembers with
      | cons hm hrest =>
        rw [chainChars, memberChars_eq_some_iff.mpr hm, ih.mpr ⟨_, hrest, rfl⟩]
        rfl

/-- There is no chain if code cannot go down some segment. -/
theorem chainChars_eq_none_iff {segments : List (List Char)} :
    chainChars segments = none ↔ ∃ segment ∈ segments, memberChars segment = none := by
  induction segments with
  | nil => simp [chainChars]
  | cons segment rest ih =>
    rw [List.exists_mem_cons_iff, ← ih, chainChars]
    cases memberChars segment with
    | none => simp
    | some cs => cases chainChars rest <;> simp

/-! ## Fields -/

/-- **The code of a field** is `this` and how code goes down its segments. -/
theorem path_eq_ok_iff {field p : String} : path field = .ok p
    ↔ ∃ members, List.Forall₂ Member (field.toList.splitOn '.') members
      ∧ p.toList = "this".toList ++ members.flatten := by
  rw [← Text.segments_eq_splitOn]
  constructor
  · intro h
    obtain ⟨cs, hcs, hp⟩ := path_eq_ok h
    obtain ⟨members, hmembers, rfl⟩ := chainChars_eq_some_iff.mp hcs
    exact ⟨members, hmembers, by simpa using hp⟩
  · rintro ⟨members, hmembers, hp⟩
    rw [path, chainChars_eq_some_iff.mpr ⟨members, hmembers, rfl⟩]
    dsimp only
    rw [← hp, String.ofList_toList]

/-- **A field without code** has a segment that is neither an identifier nor
an index, and the error names the field. -/
theorem path_eq_error_iff {field : String} {err : FilterError} : path field = .error err
    ↔ err = .unsafeField field
      ∧ ∃ segment ∈ field.toList.splitOn '.', ¬ (IsIdentifier segment ∨ IsIndex segment) := by
  simp only [← memberChars_ne_none_iff, not_not, ← Text.segments_eq_splitOn,
    ← chainChars_eq_none_iff]
  unfold path
  cases chainChars (Text.segments '.' field.toList) with
  | none => simp [eq_comm]
  | some cs => simp

/-- **A field has code** if each of its segments is an identifier or an
index. -/
theorem exists_path_iff {field : String} : (∃ p, path field = .ok p)
    ↔ ∀ segment ∈ field.toList.splitOn '.', IsIdentifier segment ∨ IsIndex segment := by
  constructor
  · rintro ⟨p, hp⟩
    intro segment hmem
    by_contra hbad
    have herr := path_eq_error_iff.mpr ⟨rfl, segment, hmem, hbad⟩
    exact absurd (hp.symm.trans herr) (by simp)
  · intro hall
    cases hp : path field with
    | ok p => exact ⟨p, rfl⟩
    | error err =>
      obtain ⟨-, segment, hmem, hbad⟩ := path_eq_error_iff.mp hp
      exact absurd (hall segment hmem) hbad

/-- **Which fields code can name, and that it names one.** A field has code
exactly when each segment between its dots is an identifier or an index,
and otherwise the error names it. The code is `this` and one member for
each segment, of ASCII letters and digits and of `_ $ . [ ]` only, and it
is the code of no other field. So a test of a type is that of no other
field and type, a test of a length that of no other field, relation and
number, and neither is the other. -/
theorem path_invertible (field : String) :
    ((∃ p, path field = .ok p)
      ↔ ∀ segment ∈ field.toList.splitOn '.', IsIdentifier segment ∨ IsIndex segment)
    ∧ (∀ err, path field = .error err → err = .unsafeField field)
    ∧ (∀ p, path field = .ok p →
      (∃ members, List.Forall₂ Member (field.toList.splitOn '.') members
        ∧ p.toList = "this".toList ++ members.flatten)
      ∧ (∀ c ∈ p.toList, c.isAlphanum = true ∨ c ∈ ['_', '$', '.', '[', ']'])
      ∧ ∀ other, path other = .ok p → other = field)
    ∧ (∀ type code, ofType field type = .ok code →
      (∀ other type', ofType other type' = .ok code → other = field ∧ type' = type)
      ∧ ∀ other r n, ofSize other r n ≠ .ok code)
    ∧ ∀ r n code, ofSize field r n = .ok code →
      (∀ other r' n', ofSize other r' n' = .ok code → other = field ∧ r' = r ∧ n' = n)
      ∧ ∀ other type, ofType other type ≠ .ok code := by
  refine ⟨exists_path_iff, fun err herr => (path_eq_error_iff.mp herr).1, fun p hp => ?_,
    fun type code hcode => ?_, fun r n code hcode => ?_⟩
  · refine ⟨path_eq_ok_iff.mp hp, fun c hc => ?_, fun other ho => path_injective ho hp⟩
    simpa [isPathChar, isIdentifierChar, or_assoc] using path_chars hp c hc
  · refine ⟨fun other type' ho => ofType_injective ho hcode, fun other r n => ?_⟩
    exact ofType_ne_ofSize hcode
  · refine ⟨fun other r' n' ho => ofSize_injective ho hcode, fun other type ho => ?_⟩
    exact ofType_ne_ofSize ho hcode

/-- A field with segments of both kinds, and what can be told from the code
of a length of it. A blank, or a letter that is not ASCII, has no place in
code. -/
theorem path_invertible_mixed :
    path "a.0.$b" = .ok "this.a[0].$b"
    ∧ path "é.0" = .error (.unsafeField "é.0") ∧ path "a b" = .error (.unsafeField "a b")
    ∧ ∀ other r n, ofSize other r n = .ok "this.a[0].$b.length >= 2" →
      other = "a.0.$b" ∧ r = .ge ∧ n = 2 :=
  ⟨rfl, rfl, rfl, ((path_invertible "a.0.$b").2.2.2.2 .ge 2 "this.a[0].$b.length >= 2" rfl).1⟩

end Predicate

end DocFilter
