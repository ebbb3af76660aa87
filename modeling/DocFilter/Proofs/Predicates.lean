import DocFilter.Filter.Conjunction
import DocFilter.Filter.Predicate
import DocFilter.Proofs.Merging

/-!
# What can be read back from code

The predicates of this library are pieces of code with a narrow look. A
field goes into them as `this` with one step for each segment, in
characters of which none can be mistaken for the code around it
(`path_chars`), and from such code the field can be read back
(`path_injective`). It follows that a test of a type tells its field and
its type, a test of a length its field, its relation and its number, and
no code tests two things (`Test.code_injective`).

The other half is about code that is joined. A predicate has no `&` and
no `|`, so that predicates joined with `&&` come apart again where they
were joined (`conjuncts_chain`).
-/

namespace DocFilter

/-! ## Runs of characters -/

namespace Text

variable {p : Char → Bool} {a a' b b' : List Char}

/-- A run of characters ends where the next one is of another kind. -/
theorem takeWhile_run (ha : ∀ c ∈ a, p c = true) (hb : ∀ c, b.head? = some c → p c = false) :
    (a ++ b).takeWhile p = a := by
  rw [List.takeWhile_append_of_pos ha]
  cases b with
  | nil => rw [List.takeWhile_nil, List.append_nil]
  | cons c cs =>
    rw [List.takeWhile_cons, if_neg (by rw [hb c rfl]; exact Bool.false_ne_true), List.append_nil]

/-- **A text splits in one way into a run and what follows it.** -/
theorem run_unique (ha : ∀ c ∈ a, p c = true) (ha' : ∀ c ∈ a', p c = true)
    (hb : ∀ c, b.head? = some c → p c = false) (hb' : ∀ c, b'.head? = some c → p c = false)
    (h : a ++ b = a' ++ b') : a = a' ∧ b = b' := by
  have hrun := congrArg (List.takeWhile p) h
  rw [takeWhile_run ha hb, takeWhile_run ha' hb'] at hrun
  subst hrun
  exact ⟨rfl, List.append_cancel_left h⟩

/-- There is always a segment. -/
theorem segments_ne_nil (separator : Char) (cs : List Char) : segments separator cs ≠ [] := by
  cases cs with
  | nil => simp [segments]
  | cons c cs =>
    rw [segments]
    split
    · simp
    · split
      · simp
      · simp

/-- **A text can be read back from its segments.** -/
theorem segments_injective {separator : Char} {cs ds : List Char}
    (h : segments separator cs = segments separator ds) : cs = ds := by
  induction cs generalizing ds with
  | nil =>
    cases ds with
    | nil => rfl
    | cons d ds =>
      rw [segments, segments] at h
      split at h
      · exact absurd (List.cons.inj h).2.symm (segments_ne_nil separator ds)
      · split at h <;> cases h
  | cons c cs ih =>
    obtain ⟨s, rest, hs⟩ := List.exists_cons_of_ne_nil (segments_ne_nil separator cs)
    cases ds with
    | nil =>
      rw [segments, segments, hs] at h
      split at h <;> cases h
    | cons d ds =>
      obtain ⟨s', rest', hs'⟩ := List.exists_cons_of_ne_nil (segments_ne_nil separator ds)
      rw [segments, segments, hs, hs'] at h
      by_cases hc : c = separator
      · by_cases hd : d = separator
        · rw [if_pos hc, if_pos hd] at h
          have htail : segments separator cs = segments separator ds := by
            rw [hs, hs', (List.cons.inj h).2]
          rw [hc, hd, ih htail]
        · rw [if_pos hc, if_neg hd] at h
          cases h
      · by_cases hd : d = separator
        · rw [if_neg hc, if_pos hd] at h
          cases h
        · rw [if_neg hc, if_neg hd] at h
          simp only [List.cons.injEq] at h
          obtain ⟨⟨rfl, rfl⟩, rfl⟩ := h
          rw [ih (hs.trans hs'.symm)]

end Text

namespace Predicate

/-! ## Paths -/

/-- A character of a path. -/
def isPathChar (c : Char) : Bool :=
  isIdentifierChar c || c == '.' || c == '[' || c == ']'

/-- **A segment goes into code in one of two forms.** -/
theorem memberChars_cases {segment cs : List Char} (h : memberChars segment = some cs) :
    (isIdentifier segment = true ∧ cs = '.' :: segment)
      ∨ (isIndex segment = true ∧ cs = '[' :: segment ++ [']']) := by
  unfold memberChars at h
  split at h
  · rename_i hi
    exact .inl ⟨hi, (Option.some.inj h).symm⟩
  · split at h
    · rename_i hi
      exact .inr ⟨hi, (Option.some.inj h).symm⟩
    · cases h

/-- An identifier consists of identifier characters. -/
theorem isIdentifierChar_of_mem {segment : List Char} (h : isIdentifier segment = true) :
    ∀ c ∈ segment, isIdentifierChar c = true := by
  cases segment with
  | nil => cases h
  | cons c cs =>
    rw [isIdentifier, Bool.and_eq_true, List.all_eq_true] at h
    intro d hd
    rcases List.mem_cons.mp hd with rfl | hd
    · have hstart := h.1
      unfold isIdentifierStart at hstart
      unfold isIdentifierChar Char.isAlphanum
      rw [Bool.or_eq_true, Bool.or_eq_true] at hstart
      rcases hstart with (hs | hs) | hs <;> simp [hs]
    · exact h.2 d hd

/-- An index consists of digits. -/
theorem isDigit_of_mem {segment : List Char} (h : isIndex segment = true) :
    ∀ c ∈ segment, c.isDigit = true := by
  rw [isIndex, Bool.and_eq_true, List.all_eq_true] at h
  exact h.2

/-- One more segment is one more step of the chain. -/
theorem chainChars_cons_eq_some {segment cs : List Char} {rest : List (List Char)}
    (h : chainChars (segment :: rest) = some cs) :
    ∃ member more, memberChars segment = some member ∧ chainChars rest = some more
      ∧ cs = member ++ more := by
  rw [chainChars] at h
  split at h
  · rename_i member more hm hr
    exact ⟨member, more, hm, hr, (Option.some.inj h).symm⟩
  · cases h

/-- **A chain has the characters of paths only.** -/
theorem chainChars_chars {segments : List (List Char)} {cs : List Char}
    (h : chainChars segments = some cs) : ∀ c ∈ cs, isPathChar c = true := by
  induction segments generalizing cs with
  | nil =>
    obtain rfl := Option.some.inj h
    intro c hc
    cases hc
  | cons segment rest ih =>
    obtain ⟨member, more, hm, hr, rfl⟩ := chainChars_cons_eq_some h
    intro c hc
    rcases List.mem_append.mp hc with hc | hc
    · rcases memberChars_cases hm with ⟨hi, rfl⟩ | ⟨hi, rfl⟩
      · rcases List.mem_cons.mp hc with rfl | hc
        · decide
        · unfold isPathChar
          rw [isIdentifierChar_of_mem hi c hc]
          rfl
      · rcases List.mem_cons.mp hc with rfl | hc
        · decide
        · rcases List.mem_append.mp hc with hc | hc
          · unfold isPathChar isIdentifierChar Char.isAlphanum
            rw [isDigit_of_mem hi c hc]
            simp
          · rw [List.mem_singleton] at hc
            subst hc
            decide
    · exact ih hr c hc

/-- A chain starts with the mark of its first step. -/
theorem chainChars_head {segments : List (List Char)} {cs : List Char}
    (h : chainChars segments = some cs) {c : Char} (hc : cs.head? = some c) :
    isIdentifierChar c = false := by
  cases segments with
  | nil =>
    obtain rfl := Option.some.inj h
    cases hc
  | cons segment rest =>
    obtain ⟨member, more, hm, hr, rfl⟩ := chainChars_cons_eq_some h
    rcases memberChars_cases hm with ⟨hi, rfl⟩ | ⟨hi, rfl⟩
    · obtain rfl := Option.some.inj hc
      decide
    · obtain rfl := Option.some.inj hc
      decide

/-- **The segments can be read back from a chain.** -/
theorem chainChars_injective {segments segments' : List (List Char)} {cs : List Char}
    (h : chainChars segments = some cs) (h' : chainChars segments' = some cs) :
    segments = segments' := by
  induction segments generalizing segments' cs with
  | nil =>
    obtain rfl := Option.some.inj h
    cases segments' with
    | nil => rfl
    | cons segment' rest' =>
      obtain ⟨member', more', hm', -, happ⟩ := chainChars_cons_eq_some h'
      rcases memberChars_cases hm' with ⟨-, rfl⟩ | ⟨-, rfl⟩ <;> cases happ
  | cons segment rest ih =>
    obtain ⟨member, more, hm, hr, rfl⟩ := chainChars_cons_eq_some h
    cases segments' with
    | nil =>
      have happ := Option.some.inj h'
      rcases memberChars_cases hm with ⟨-, rfl⟩ | ⟨-, rfl⟩ <;> cases happ
    | cons segment' rest' =>
      obtain ⟨member', more', hm', hr', happ⟩ := chainChars_cons_eq_some h'
      -- the mark tells the two forms apart, and the segment runs up to the next mark
      rcases memberChars_cases hm with ⟨hi, rfl⟩ | ⟨hi, rfl⟩ <;>
        rcases memberChars_cases hm' with ⟨hi', rfl⟩ | ⟨hi', rfl⟩
      · obtain ⟨rfl, rfl⟩ := Text.run_unique (isIdentifierChar_of_mem hi)
          (isIdentifierChar_of_mem hi') (fun c hc => chainChars_head hr hc)
          (fun c hc => chainChars_head hr' hc) (List.cons.inj happ).2
        rw [ih hr hr']
      · cases happ
      · cases happ
      · simp only [List.cons_append, List.append_assoc, List.cons.injEq, true_and] at happ
        obtain ⟨rfl, hmore⟩ := Text.run_unique (isDigit_of_mem hi) (isDigit_of_mem hi')
          (fun c hc => by obtain rfl := Option.some.inj hc; decide)
          (fun c hc => by obtain rfl := Option.some.inj hc; decide) happ
        obtain rfl := (List.cons.inj hmore).2
        rw [ih hr hr']

/-- The code of a field is `this` and its chain. -/
theorem path_eq_ok {field p : String} (h : path field = .ok p) :
    ∃ cs, chainChars (Text.segments '.' field.toList) = some cs
      ∧ p.toList = 't' :: 'h' :: 'i' :: 's' :: cs := by
  unfold path at h
  cases hc : chainChars (Text.segments '.' field.toList) with
  | none => rw [hc] at h; cases h
  | some cs =>
    rw [hc] at h
    obtain rfl := Except.ok.inj h
    refine ⟨cs, rfl, ?_⟩
    rw [String.toList_ofList]
    simp

/-- **The code of a field has the characters of paths only.** -/
theorem path_chars {field p : String} (h : path field = .ok p) :
    ∀ c ∈ p.toList, isPathChar c = true := by
  obtain ⟨cs, hcs, hp⟩ := path_eq_ok h
  intro c hc
  have happ : p.toList = ['t', 'h', 'i', 's'] ++ cs := hp
  rw [happ, List.mem_append] at hc
  rcases hc with hc | hc
  · exact List.all_eq_true.mp (by decide : ['t', 'h', 'i', 's'].all isPathChar = true) c hc
  · exact chainChars_chars hcs c hc

/-- **The field can be read back from its code.** -/
theorem path_injective {field other p : String} (h : path field = .ok p)
    (h' : path other = .ok p) : field = other := by
  obtain ⟨cs, hcs, hp⟩ := path_eq_ok h
  obtain ⟨ds, hds, hp'⟩ := path_eq_ok h'
  rw [hp, List.cons_inj_right, List.cons_inj_right, List.cons_inj_right, List.cons_inj_right] at hp'
  subst hp'
  exact String.toList_injective (Text.segments_injective (chainChars_injective hcs hds))

/-! ## Tests -/

/-- What stands before the path in a test of a type. -/
def typeLead : TypeName → List Char
  | .null => []
  | .array => ['A', 'r', 'r', 'a', 'y', '.', 'i', 's', 'A', 'r', 'r', 'a', 'y', '(']
  | _ => ['t', 'y', 'p', 'e', 'o', 'f', ' ']

/-- What stands after the path in a test of a type. -/
def typeTrail : TypeName → List Char
  | .string => [' ', '=', '=', ' ', '"', 's', 't', 'r', 'i', 'n', 'g', '"']
  | .number => [' ', '=', '=', ' ', '"', 'n', 'u', 'm', 'b', 'e', 'r', '"']
  | .bool => [' ', '=', '=', ' ', '"', 'b', 'o', 'o', 'l', 'e', 'a', 'n', '"']
  | .object => [' ', '=', '=', ' ', '"', 'o', 'b', 'j', 'e', 'c', 't', '"']
  | .null => [' ', '=', '=', '=', ' ', 'n', 'u', 'l', 'l']
  | .array => [')']

/-- A test of a type is a path between two fixed pieces of code. -/
theorem typeTest_toList (p : String) (type : TypeName) :
    (typeTest p type).toList = typeLead type ++ (p.toList ++ typeTrail type) := by
  cases type <;> simp [typeTest, typeLead, typeTrail]

/-- What follows the path is not part of one. -/
theorem typeTrail_head (type : TypeName) {c : Char} (hc : (typeTrail type).head? = some c) :
    isPathChar c = false := by
  cases type <;> (obtain rfl := Option.some.inj hc; decide)

/-- The two pieces of code tell the type. -/
theorem type_eq_of_trail {type other : TypeName} (h : typeTrail type = typeTrail other) :
    type = other := by
  cases type <;> cases other <;> first | rfl | exact absurd h (by decide)

/-- A test of a type starts with the piece that goes with it. -/
theorem lead_eq_of_typeTest {p p' : List Char} {type other : TypeName}
    (h : typeLead type ++ 't' :: 'h' :: p = typeLead other ++ 't' :: 'h' :: p') :
    typeLead type = typeLead other := by
  cases type <;> cases other <;> first | rfl | exact absurd h (by simp [typeLead])

/-- **A test of a type tells its field and its type.** -/
theorem ofType_injective {field other code : String} {type type' : TypeName}
    (h : ofType field type = .ok code) (h' : ofType other type' = .ok code) :
    field = other ∧ type = type' := by
  obtain ⟨p, hp, rfl⟩ := map_eq_ok_iff.mp h
  obtain ⟨p', hp', hcode⟩ := map_eq_ok_iff.mp h'
  obtain ⟨cs, -, hcs⟩ := path_eq_ok hp
  obtain ⟨ds, -, hds⟩ := path_eq_ok hp'
  have heq := congrArg String.toList hcode
  rw [typeTest_toList, typeTest_toList] at heq
  have hlead : typeLead type' = typeLead type := by
    rw [hcs, hds] at heq
    exact lead_eq_of_typeTest heq
  rw [hlead] at heq
  obtain ⟨hpp, htrail⟩ := Text.run_unique (path_chars hp') (path_chars hp)
    (fun c hc => typeTrail_head type' hc) (fun c hc => typeTrail_head type hc)
    (List.append_cancel_left heq)
  obtain rfl := String.toList_injective hpp
  exact ⟨path_injective hp hp', (type_eq_of_trail htrail).symm⟩

/-- The step from a list to its length. -/
def lengthChars : List Char := ['.', 'l', 'e', 'n', 'g', 't', 'h']

/-- A test of a length is a path, a relation and a number. -/
theorem ofSize_eq_ok {field code : String} {r : Relation} {n : Int}
    (h : ofSize field r n = .ok code) :
    ∃ p, path field = .ok p ∧ code.toList = (p.toList ++ lengthChars)
      ++ ' ' :: (r.codeSymbol.toList ++ ' ' :: Decimal.intChars n) := by
  obtain ⟨p, hp, rfl⟩ := map_eq_ok_iff.mp h
  refine ⟨p, hp, ?_⟩
  simp [Decimal.intText, lengthChars]

/-- An integer can be read back from its digits. -/
theorem intChars_injective {n k : Int} (h : Decimal.intChars n = Decimal.intChars k) : n = k := by
  have hdigit : ∀ (i : Int) (c : Char), (Nat.toDigits 10 i.natAbs).head? = some c →
      c.isDigit = true := by
    intro i c hc
    exact Nat.isDigit_of_mem_toDigits (by decide) (by decide) (List.mem_of_head? hc)
  have habs : ∀ {i j : Nat}, Nat.toDigits 10 i = Nat.toDigits 10 j → i = j := by
    intro i j hij
    have := congrArg (fun cs => Nat.ofDigitChars 10 cs 0) hij
    simpa only [Nat.ofDigitChars_ten_toDigits] using this
  unfold Decimal.intChars at h
  by_cases hn : n < 0 <;> by_cases hk : k < 0
  · rw [if_pos hn, if_pos hk] at h
    have := habs (List.append_cancel_left h)
    omega
  · rw [if_pos hn, if_neg hk] at h
    exact absurd (hdigit k '-' (by rw [← List.nil_append (Nat.toDigits 10 k.natAbs), ← h]; rfl))
      (by decide)
  · rw [if_neg hn, if_pos hk] at h
    exact absurd (hdigit n '-' (by rw [← List.nil_append (Nat.toDigits 10 n.natAbs), h]; rfl))
      (by decide)
  · rw [if_neg hn, if_neg hk] at h
    have := habs (List.append_cancel_left h)
    omega

/-- A symbol in code has no blank. -/
theorem codeSymbol_chars (r : Relation) : ∀ c ∈ r.codeSymbol.toList, (c != ' ') = true := by
  cases r <;> exact List.all_eq_true.mp (by decide)

theorem codeSymbol_injective {r q : Relation} (h : r.codeSymbol.toList = q.codeSymbol.toList) :
    r = q := by
  cases r <;> cases q <;> first | rfl | exact absurd h (by decide)

/-- What follows a field in a test of a length is not part of a path. -/
theorem path_length_chars {field p : String} (hp : path field = .ok p) :
    ∀ c ∈ p.toList ++ lengthChars, isPathChar c = true := by
  intro c hc
  rcases List.mem_append.mp hc with hc | hc
  · exact path_chars hp c hc
  · exact List.all_eq_true.mp (by decide : lengthChars.all isPathChar = true) c hc

/-- **A test of a length tells its field, its relation and its number.** -/
theorem ofSize_injective {field other code : String} {r q : Relation} {n k : Int}
    (h : ofSize field r n = .ok code) (h' : ofSize other q k = .ok code) :
    field = other ∧ r = q ∧ n = k := by
  obtain ⟨p, hp, hcode⟩ := ofSize_eq_ok h
  obtain ⟨p', hp', hcode'⟩ := ofSize_eq_ok h'
  have hblank : ∀ (cs : List Char) (c : Char), (' ' :: cs).head? = some c →
      isPathChar c = false := by
    intro cs c hc
    obtain rfl := Option.some.inj hc
    decide
  obtain ⟨hpath, hrest⟩ := Text.run_unique (path_length_chars hp) (path_length_chars hp')
    (hblank _) (hblank _) (hcode.symm.trans hcode')
  obtain ⟨hsym, hnum⟩ := Text.run_unique (codeSymbol_chars r) (codeSymbol_chars q)
    (fun c hc => by obtain rfl := Option.some.inj hc; decide)
    (fun c hc => by obtain rfl := Option.some.inj hc; decide) (List.cons.inj hrest).2
  obtain rfl := String.toList_injective (List.append_cancel_right hpath)
  exact ⟨path_injective hp hp', codeSymbol_injective hsym,
    intChars_injective (List.cons.inj hnum).2⟩

/-- **No test is of a type and of a length.** -/
theorem ofType_ne_ofSize {field other code : String} {type : TypeName} {r : Relation} {n : Int}
    (h : ofType field type = .ok code) : ofSize other r n ≠ .ok code := by
  intro h'
  obtain ⟨p, hp, rfl⟩ := map_eq_ok_iff.mp h
  obtain ⟨p', hp', hcode⟩ := ofSize_eq_ok h'
  obtain ⟨cs, -, hcs⟩ := path_eq_ok hp
  obtain ⟨ds, -, hds⟩ := path_eq_ok hp'
  rw [typeTest_toList] at hcode
  cases type with
  | null =>
    -- both start with a path, and only the code after it differs
    obtain ⟨-, hrest⟩ := Text.run_unique (path_chars hp) (path_length_chars hp')
      (fun c hc => typeTrail_head .null hc)
      (fun c hc => by obtain rfl := Option.some.inj hc; decide) hcode
    cases r <;> exact absurd hrest (by simp [typeTrail, Relation.codeSymbol])
  | array => rw [hcs, hds] at hcode; exact absurd hcode (by simp [typeLead])
  | string => rw [hcs, hds] at hcode; exact absurd hcode (by simp [typeLead])
  | number => rw [hcs, hds] at hcode; exact absurd hcode (by simp [typeLead])
  | bool => rw [hcs, hds] at hcode; exact absurd hcode (by simp [typeLead])
  | object => rw [hcs, hds] at hcode; exact absurd hcode (by simp [typeLead])

/-- **A test in code**: of a type, of its absence, or of a length. -/
inductive Test where
  /-- The field has the type. -/
  | type (field : String) (type : TypeName)
  /-- The field does not have the type. -/
  | notType (field : String) (type : TypeName)
  /-- The length of the field stands in the relation to the number. -/
  | size (field : String) (r : Relation) (n : Int)

/-- The code of a test. -/
def Test.code : Test → Except FilterError String
  | .type field t => ofType field t
  | .notType field t => (ofType field t).map fun code => "!(" ++ code ++ ")"
  | .size field r n => ofSize field r n

/-- Only a negated test starts with the sign of negation. -/
theorem head_ofType {field code : String} {type : TypeName} (h : ofType field type = .ok code) :
    code.toList.head? ≠ some '!' := by
  obtain ⟨p, hp, rfl⟩ := map_eq_ok_iff.mp h
  obtain ⟨cs, -, hcs⟩ := path_eq_ok hp
  rw [typeTest_toList, hcs]
  cases type <;> simp [typeLead]

theorem head_ofSize {field code : String} {r : Relation} {n : Int}
    (h : ofSize field r n = .ok code) : code.toList.head? ≠ some '!' := by
  obtain ⟨p, hp, hcode⟩ := ofSize_eq_ok h
  obtain ⟨cs, -, hcs⟩ := path_eq_ok hp
  rw [hcode, hcs]
  simp

theorem head_negated (code : String) : ("!(" ++ code ++ ")").toList.head? = some '!' := by
  simp

/-- **From its code one can tell a test.** -/
theorem Test.code_injective {test other : Test} {code : String} (h : test.code = .ok code)
    (h' : other.code = .ok code) : test = other := by
  cases test with
  | type field type =>
    cases other with
    | type field' type' =>
      obtain ⟨rfl, rfl⟩ := ofType_injective h h'
      rfl
    | notType field' type' =>
      obtain ⟨p, -, rfl⟩ := map_eq_ok_iff.mp h'
      exact absurd (head_negated p) (head_ofType h)
    | size field' r n => exact absurd h' (ofType_ne_ofSize h)
  | notType field type =>
    obtain ⟨p, hp, rfl⟩ := map_eq_ok_iff.mp h
    cases other with
    | type field' type' => exact absurd (head_negated p) (head_ofType h')
    | notType field' type' =>
      obtain ⟨p', hp', hcode⟩ := map_eq_ok_iff.mp h'
      have heq := congrArg String.toList hcode
      simp only [String.toList_append, List.append_assoc, List.append_cancel_left_eq,
        List.append_cancel_right_eq] at heq
      obtain rfl := String.toList_injective heq
      obtain ⟨rfl, rfl⟩ := ofType_injective hp hp'
      rfl
    | size field' r n => exact absurd (head_negated p) (head_ofSize h')
  | size field r n =>
    cases other with
    | type field' type' => exact absurd h (ofType_ne_ofSize h')
    | notType field' type' =>
      obtain ⟨p, -, rfl⟩ := map_eq_ok_iff.mp h'
      exact absurd (head_negated p) (head_ofSize h)
    | size field' r' n' =>
      obtain ⟨rfl, rfl, rfl⟩ := ofSize_injective h h'
      rfl

/-! ## Joined code -/

/-- A character that plays no part in joining code. -/
def isAtomChar (c : Char) : Bool :=
  c != '&' && c != '|'

/-- **Code that was not joined from other code.** -/
def IsAtom (code : List Char) : Prop :=
  ∀ c ∈ code, isAtomChar c = true

theorem isAtom_append {a b : List Char} (ha : IsAtom a) (hb : IsAtom b) : IsAtom (a ++ b) := by
  intro c hc
  rcases List.mem_append.mp hc with hc | hc
  · exact ha c hc
  · exact hb c hc

/-- A path has no characters that join. -/
theorem isAtom_path {field p : String} (h : path field = .ok p) : IsAtom p.toList := by
  intro c hc
  have hpath := path_chars h c hc
  unfold isAtomChar
  rw [Bool.and_eq_true, bne_iff_ne, bne_iff_ne]
  constructor
  · rintro rfl
    exact absurd hpath (by decide)
  · rintro rfl
    exact absurd hpath (by decide)

/-- A test of a type is not joined. -/
theorem isAtom_ofType {field code : String} {type : TypeName} (h : ofType field type = .ok code) :
    IsAtom code.toList := by
  obtain ⟨p, hp, rfl⟩ := map_eq_ok_iff.mp h
  rw [typeTest_toList]
  refine isAtom_append ?_ (isAtom_append (isAtom_path hp) ?_)
  · exact List.all_eq_true.mp (by cases type <;> decide)
  · exact List.all_eq_true.mp (by cases type <;> decide)

/-- Nor is its negation. -/
theorem isAtom_negated {code : String} (h : IsAtom code.toList) :
    IsAtom ("!(" ++ code ++ ")").toList := by
  have hlist : ("!(" ++ code ++ ")").toList = ['!', '('] ++ (code.toList ++ [')']) := by simp
  rw [hlist]
  refine isAtom_append ?_ (isAtom_append h ?_)
  · exact List.all_eq_true.mp (by decide)
  · exact List.all_eq_true.mp (by decide)

/-- A number has no characters that join. -/
theorem isAtom_intChars (n : Int) : IsAtom (Decimal.intChars n) := by
  refine isAtom_append ?_ (fun c hc => ?_)
  · split
    · exact List.all_eq_true.mp (by decide)
    · exact List.all_eq_true.mp (by decide)
  · have hdigit := Nat.isDigit_of_mem_toDigits (by decide) (by decide) hc
    unfold isAtomChar
    rw [Bool.and_eq_true, bne_iff_ne, bne_iff_ne]
    constructor
    · rintro rfl
      exact absurd hdigit (by decide)
    · rintro rfl
      exact absurd hdigit (by decide)

/-- A test of a length is not joined. -/
theorem isAtom_ofSize {field code : String} {r : Relation} {n : Int}
    (h : ofSize field r n = .ok code) : IsAtom code.toList := by
  obtain ⟨p, hp, hcode⟩ := ofSize_eq_ok h
  have hblank : IsAtom [' '] := List.all_eq_true.mp (by decide)
  have hsymbol : IsAtom r.codeSymbol.toList := List.all_eq_true.mp (by cases r <;> decide)
  have hlength : IsAtom lengthChars := List.all_eq_true.mp (by decide)
  rw [hcode]
  exact isAtom_append (isAtom_append (isAtom_path hp) hlength)
    (isAtom_append hblank (isAtom_append hsymbol (isAtom_append hblank (isAtom_intChars n))))

/-- **The conjuncts of code**: what stands between the places where it is
joined. -/
def conjuncts : List Char → List (List Char)
  | [] => [[]]
  | ' ' :: '&' :: '&' :: ' ' :: rest => [] :: conjuncts rest
  | c :: rest =>
    match conjuncts rest with
    | [] => [[c]]
    | first :: more => (c :: first) :: more

/-- **Code joined from atoms**, with the atoms in order. -/
inductive Chain : List Char → List (List Char) → Prop where
  /-- An atom by itself. -/
  | atom {code : List Char} (h : IsAtom code) : Chain code [code]
  /-- Two chains with `&&` between them. -/
  | join {a b : List Char} {ps qs : List (List Char)} (ha : Chain a ps) (hb : Chain b qs) :
    Chain (a ++ ([' ', '&', '&', ' '] ++ b)) (ps ++ qs)

/-- An atom ends where code is joined to it. -/
theorem conjuncts_atom_append {a : List Char} (ha : IsAtom a) (b : List Char) :
    conjuncts (a ++ ([' ', '&', '&', ' '] ++ b)) = a :: conjuncts b := by
  induction a with
  | nil => rfl
  | cons c cs ih =>
    have hcs : IsAtom cs := fun d hd => ha d (List.mem_cons_of_mem _ hd)
    rw [List.cons_append, conjuncts.eq_3, ih hcs]
    -- the joint itself starts with `&`, which an atom does not have
    intro rest _ hrest
    cases cs with
    | nil => cases hrest
    | cons d ds =>
      obtain ⟨rfl, -⟩ := List.cons.inj hrest
      exact absurd (ha '&' (by simp)) (by decide)

theorem conjuncts_atom {a : List Char} (ha : IsAtom a) : conjuncts a = [a] := by
  induction a with
  | nil => rfl
  | cons c cs ih =>
    have hcs : IsAtom cs := fun d hd => ha d (List.mem_cons_of_mem _ hd)
    rw [conjuncts.eq_3, ih hcs]
    intro rest _ hrest
    subst hrest
    exact absurd (ha '&' (by simp)) (by decide)

/-- A chain ends where code is joined to it. -/
theorem Chain.conjuncts_append {a : List Char} {ps : List (List Char)} (ha : Chain a ps)
    (b : List Char) :
    conjuncts (a ++ ([' ', '&', '&', ' '] ++ b)) = ps ++ conjuncts b := by
  induction ha generalizing b with
  | atom h => exact conjuncts_atom_append h b
  | join _ _ iha ihb =>
    rw [List.append_assoc, List.append_assoc, iha, ihb, List.append_assoc]

/-- **A chain comes apart where it was joined.** -/
theorem conjuncts_chain {a : List Char} {ps : List (List Char)} (ha : Chain a ps) :
    conjuncts a = ps := by
  induction ha with
  | atom h => exact conjuncts_atom h
  | join ha _ _ ihb => rw [ha.conjuncts_append, ihb]

/-- Code without a bar has no bars side by side. -/
theorem occurs_eq_false {code : List Char} (h : '|' ∉ code) :
    Text.occurs ['|', '|'] code = false := by
  induction code with
  | nil => rfl
  | cons c cs ih =>
    rw [List.mem_cons, not_or] at h
    rw [Text.occurs, ih h.2, Bool.or_false, List.isPrefixOf, beq_eq_false_iff_ne.mpr h.1,
      Bool.false_and]

/-- A chain has no bar. -/
theorem Chain.not_mem {a : List Char} {ps : List (List Char)} (ha : Chain a ps) : '|' ∉ a := by
  induction ha with
  | atom h => exact fun hmem => absurd (h '|' hmem) (by decide)
  | join _ _ iha ihb =>
    intro hmem
    rcases List.mem_append.mp hmem with hmem | hmem
    · exact iha hmem
    · rcases List.mem_append.mp hmem with hmem | hmem
      · exact absurd hmem (by decide)
      · exact ihb hmem

/-- **Chains are joined as they are**, without parentheses, to a chain. -/
theorem Chain.joinWhere {l r code : String} {ps qs : List (List Char)} (hl : Chain l.toList ps)
    (hr : Chain r.toList qs) (h : joinWhere (.text l) (.text r) false false = .ok code) :
    Chain code.toList (ps ++ qs) := by
  unfold DocFilter.joinWhere at h
  dsimp only at h
  split at h
  · cases h
  · obtain rfl := Except.ok.inj h
    have hcode : (guarded l false ++ " && " ++ guarded r false).toList
        = l.toList ++ ([' ', '&', '&', ' '] ++ r.toList) := by
      unfold guarded
      rw [occurs_eq_false hl.not_mem, occurs_eq_false hr.not_mem]
      simp
    rw [hcode]
    exact .join hl hr

end Predicate

end DocFilter
