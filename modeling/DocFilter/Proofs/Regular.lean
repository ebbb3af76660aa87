import DocFilter.Proofs.Clauses
import DocFilter.Proofs.Lexemes
import DocFilter.Proofs.WellFormed

/-!
# What queries are parsed to

An expression is **regular** (`Expr.Regular`) when its groups have two
operands or more and no operand of their own kind, no negation stands
above a ready-made document, and every comparison is **proper**: it is
about a field that a text can name (`IsField`), and compares it by an
operator that takes the value (`Comparison.Proper`).

Every expression of a query is regular, whatever the shape of the query
(`Query.regular_of_parse`). For a text this is read off its derivation;
lists only join regular expressions, and joining keeps them regular
(`Expr.Regular.join`).
-/

namespace DocFilter

open Decimal (IsNumeral)

/-! ## Fields -/

/-- **A field that a text can name**: a path whose segments have a letter,
a digit or an underscore each, and nothing else, and which as a whole is
neither a reserved word nor a number. -/
structure IsField (field : String) : Prop where
  /-- Every segment has characters, and only these. -/
  segments : ∀ segment ∈ Text.segments '.' field.toList,
    segment ≠ [] ∧ ∀ c ∈ segment, c.isAlphanum = true ∨ c = '_'
  /-- It is not reserved, in any case of its letters. -/
  not_reserved : Text.lowerCase field ∉ Token.reservedWords
  /-- It is not a number. -/
  not_numeral : ¬ IsNumeral field.toList

/-- The characters of segments are those of the text but the separators. -/
theorem Text.mem_segments_iff {separator c : Char} {cs : List Char} :
    (∃ segment ∈ segments separator cs, c ∈ segment) ↔ c ∈ cs ∧ c ≠ separator := by
  induction cs with
  | nil => simp [segments]
  | cons d cs ih =>
    obtain ⟨s, rest, hs⟩ := List.exists_cons_of_ne_nil (segments_ne_nil separator cs)
    rw [segments]
    by_cases hd : d = separator
    · rw [if_pos hd, List.exists_mem_cons_iff, ih, List.mem_cons]
      subst hd
      simp only [List.not_mem_nil, false_or]
      constructor
      · rintro ⟨hc, hne⟩
        exact ⟨.inr hc, hne⟩
      · rintro ⟨hc, hne⟩
        exact ⟨hc.resolve_left hne, hne⟩
    · have hcons : (∃ segment ∈ (d :: s) :: rest, c ∈ segment)
          ↔ c = d ∨ ∃ segment ∈ s :: rest, c ∈ segment := by
        simp [or_assoc]
      rw [if_neg hd, hs]
      rw [hs] at ih
      rw [hcons, ih, List.mem_cons]
      refine ⟨?_, ?_⟩
      · rintro (rfl | ⟨hc, hne⟩)
        · exact ⟨.inl rfl, hd⟩
        · exact ⟨.inr hc, hne⟩
      · rintro ⟨rfl | hc, hne⟩
        · exact .inl rfl
        · exact .inr ⟨hc, hne⟩

/-- **A field is a plain word without empty segments.** -/
theorem isField_iff {field : String} : IsField field
    ↔ Token.IsPlainWord field.toList
      ∧ ∀ segment ∈ Text.segments '.' field.toList, segment ≠ [] := by
  constructor
  · intro h
    refine ⟨⟨?_, fun c hc => ?_, ?_, h.not_numeral⟩, fun s hs => (h.segments s hs).1⟩
    · intro hnil
      exact (h.segments [] (by rw [hnil]; exact List.mem_cons_self)).1 rfl
    · by_cases hdot : c = '.'
      · simp [Token.isWordChar, hdot]
      · obtain ⟨s, hs, hcs⟩ := Text.mem_segments_iff.mpr ⟨hc, hdot⟩
        rcases (h.segments s hs).2 c hcs with halnum | hunderscore
        · simp [Token.isWordChar, halnum]
        · simp [Token.isWordChar, hunderscore]
    · rw [String.ofList_toList]
      exact h.not_reserved
  · rintro ⟨hword, hne⟩
    refine ⟨fun s hs => ⟨hne s hs, fun c hc => ?_⟩, ?_, hword.not_numeral⟩
    · obtain ⟨hmem, hdot⟩ := Text.mem_segments_iff.mp ⟨s, hs, hc⟩
      simpa [Token.isWordChar, hdot] using hword.chars c hmem
    · simpa using hword.not_reserved

/-! ## Comparisons -/

/-- **A value that a text can write**: integers have 64 bits, and doubles
are finite. -/
def Literal.Proper : Literal → Prop
  | .int n => -2 ^ 63 ≤ n ∧ n < 2 ^ 63
  | .float d => d.isFinite = true
  | _ => True

/-- **A comparison that a text can write.** -/
structure Comparison.Proper (c : Comparison) : Prop where
  /-- The field is one that a text can name. -/
  field : IsField c.field
  /-- The operator takes the value. -/
  takes : c.op.Takes c.value
  /-- The value is one that a text can write. -/
  value : c.value.Proper
  /-- Nothing but a type test takes the name of a type. -/
  typeName : ∀ type, c.value = .typeName type → c.op = .typeOf

/-- What a literal is read as can be written, and is not the name of a
type. -/
theorem RawLiteral.proper_of_value? {raw : RawLiteral} {value : Literal}
    (h : raw.value? = some value) : value.Proper ∧ ∀ type, value ≠ .typeName type := by
  have hok : Literal.ofRaw raw 0 = .ok value := Literal.ofRaw_eq_ok_iff.mpr h
  cases raw with
  | number spelling =>
    rw [Literal.ofRaw, Literal.ofNumber] at hok
    split at hok
    · split at hok
      · split at hok
        · obtain rfl := Except.ok.inj hok
          exact ⟨‹_›, fun type htype => by cases htype⟩
        · cases hok
      · cases hok
    · split at hok
      · split at hok
        · rename_i hfits
          obtain rfl := Except.ok.inj hok
          refine ⟨?_, fun type htype => by cases htype⟩
          simpa [Literal.Proper, fitsInt64] using hfits
        · cases hok
      · cases hok
  | text content =>
    obtain rfl := Except.ok.inj hok
    exact ⟨trivial, fun type htype => by cases htype⟩
  | bool b =>
    obtain rfl := Except.ok.inj hok
    exact ⟨trivial, fun type htype => by cases htype⟩
  | null =>
    obtain rfl := Except.ok.inj hok
    exact ⟨trivial, fun type htype => by cases htype⟩

/-- So is the value of a constraint, and the name of a type stands after
`type` only. -/
theorem Grammar.Constraint.proper_of_value? {constraint : Constraint} {value : Literal}
    (h : constraint.value? = some value) :
    value.Proper ∧ ∀ type, value = .typeName type → constraint.op = .typeOf := by
  have hraw : ∀ {raw : RawLiteral}, raw.value? = some value →
      value.Proper ∧ ∀ type, value = .typeName type → constraint.op = .typeOf := by
    intro raw hvalue
    obtain ⟨hproper, htype⟩ := RawLiteral.proper_of_value? hvalue
    exact ⟨hproper, fun type heq => absurd heq (htype type)⟩
  cases constraint with
  | typeOf name =>
    obtain ⟨type, -, rfl⟩ := Option.map_eq_some_iff.mp h
    exact ⟨trivial, fun _ _ => rfl⟩
  | relation r raw => exact hraw h
  | pattern raw => exact hraw h
  | presence word hw raw => exact hraw h
  | size word hw r raw => exact hraw h

/-- **A comparison that makes sense is proper.** -/
theorem Grammar.Test.proper_comparison {t : Test} (ha : t.Admissible)
    (hw : Token.IsPlainWord t.field.toList) : t.comparison.Proper := by
  obtain ⟨hpath, value, hvalue, htakes⟩ := ha
  obtain ⟨hproper, htype⟩ := Constraint.proper_of_value? hvalue
  rw [Test.comparison_eq hvalue]
  exact ⟨isField_iff.mpr ⟨hw, hpath⟩, htakes, hproper, htype⟩

/-! ## Expressions -/

namespace Expr

/-- **A regular expression**, such as queries are parsed to. -/
inductive Regular : Expr → Prop where
  /-- A proper comparison. -/
  | comparison {c : Comparison} (h : c.Proper) : Regular (.comparison c)
  /-- An `and` of two or more, with no `and` among them. -/
  | all {operands : List Expr} (h : ∀ e ∈ operands, Regular e)
    (hflat : ∀ inner, .all inner ∉ operands) (htwo : 2 ≤ operands.length) :
    Regular (.all operands)
  /-- An `or` of two or more, with no `or` among them. -/
  | any {operands : List Expr} (h : ∀ e ∈ operands, Regular e)
    (hflat : ∀ inner, .any inner ∉ operands) (htwo : 2 ≤ operands.length) :
    Regular (.any operands)
  /-- A negation of what holds no ready-made document. -/
  | not {operand : Expr} (h : Regular operand) (hfree : operand.fragments = []) :
    Regular (.not operand)
  /-- A ready-made document. -/
  | fragment (doc : Document) : Regular (.fragment doc)

theorem regular_group_iff {k : Connective} {operands : List Expr} : (k.group operands).Regular
    ↔ (∀ e ∈ operands, e.Regular) ∧ (∀ inner, k.group inner ∉ operands)
      ∧ 2 ≤ operands.length := by
  cases k with
  | and =>
    refine ⟨fun h => ?_, fun ⟨h, hflat, htwo⟩ => .all h hflat htwo⟩
    cases h with
    | all h hflat htwo => exact ⟨h, hflat, htwo⟩
  | or =>
    refine ⟨fun h => ?_, fun ⟨h, hflat, htwo⟩ => .any h hflat htwo⟩
    cases h with
    | any h hflat htwo => exact ⟨h, hflat, htwo⟩

/-- What is regular is in normal form. -/
theorem Regular.isNormal {e : Expr} (h : e.Regular) : e.IsNormal := by
  induction h with
  | comparison _ => exact .comparison _
  | all _ hflat htwo ih => exact .all ih hflat (by omega)
  | any _ hflat htwo ih => exact .any ih hflat (by omega)
  | not _ _ ih => exact .not ih
  | fragment doc => exact .fragment doc

/-- The comparisons of what is regular are proper. -/
theorem Regular.proper {e : Expr} (h : e.Regular) : ∀ c ∈ e.comparisons, c.Proper := by
  have hgroup : ∀ (k : Connective) (operands : List Expr),
      (∀ e ∈ operands, ∀ c ∈ e.comparisons, c.Proper) →
      ∀ c ∈ (k.group operands).comparisons, c.Proper := by
    intro k operands ih c hc
    rw [comparisons_group] at hc
    obtain ⟨e, he, hc⟩ := List.mem_flatMap.mp hc
    exact ih e he c hc
  induction h with
  | comparison h => exact List.forall_mem_singleton.mpr h
  | @all operands _ _ _ ih => exact hgroup .and operands ih
  | @any operands _ _ _ ih => exact hgroup .or operands ih
  | not _ _ ih => exact ih
  | fragment doc => exact fun c hc => by cases hc

/-- **What texts write is regular**, if its comparisons are proper. -/
theorem Written.regular {e : Expr} (h : e.Written) (hc : ∀ c ∈ e.comparisons, c.Proper) :
    e.Regular := by
  have hgroup : ∀ (k : Connective) (operands : List Expr), (k.group operands).Written →
      (∀ c ∈ (k.group operands).comparisons, c.Proper) →
      (∀ e ∈ operands, e.Written → (∀ c ∈ e.comparisons, c.Proper) → e.Regular) →
      (k.group operands).Regular := by
    intro k operands h hc ih
    obtain ⟨htwo, hw⟩ := h.of_group
    rw [comparisons_group] at hc
    refine regular_group_iff.mpr ⟨fun e he => ih e he (hw e he) fun c hmem => ?_,
      (Connective.isNormal_group_iff.mp h.normal).2.1, htwo⟩
    exact hc c (List.mem_flatMap.mpr ⟨e, he, hmem⟩)
  induction e using Expr.induction with
  | comparison c => exact .comparison (hc c List.mem_cons_self)
  | all operands ih => exact hgroup .and operands h hc ih
  | any operands ih => exact hgroup .or operands h hc ih
  | not operand ih => exact .not (ih h.of_not hc) h.fragments
  | fragment doc => exact .fragment doc

/-- **What is joined from regular expressions is regular.** -/
theorem Regular.join (k : Connective) {es : List Expr} (hne : es ≠ [])
    (h : ∀ e ∈ es, e.Regular) : (k.join es).Regular := by
  -- every expression has a part, and a part is regular and is not itself such a group
  have hparts : ∀ e ∈ es, k.parts e ≠ []
      ∧ ∀ p ∈ k.parts e, p.Regular ∧ ∀ inner, p ≠ k.group inner := by
    intro e he
    rcases k.parts_cases e with ⟨operands, rfl, hparts⟩ | ⟨hno, hparts⟩
    · obtain ⟨hr, hflat, htwo⟩ := regular_group_iff.mp (h _ he)
      rw [hparts]
      exact ⟨List.ne_nil_of_length_pos (by omega),
        fun p hp => ⟨hr p hp, fun inner hinner => hflat inner (hinner ▸ hp)⟩⟩
    · rw [hparts]
      exact ⟨List.cons_ne_nil e [], List.forall_mem_singleton.mpr ⟨h e he, hno⟩⟩
  have hpart : ∀ p ∈ es.flatMap k.parts, p.Regular ∧ ∀ inner, p ≠ k.group inner := by
    intro p hp
    obtain ⟨e, he, hp⟩ := List.mem_flatMap.mp hp
    exact (hparts e he).2 p hp
  rcases k.join_cases es with ⟨e, hone, hjoin⟩ | ⟨hone, hjoin⟩
  · rw [hjoin]
    exact (hpart e (by rw [hone]; exact List.mem_singleton_self e)).1
  · have hpos : 0 < (es.flatMap k.parts).length := by
      obtain ⟨e, he⟩ := List.exists_mem_of_ne_nil es hne
      refine List.length_pos_iff.mpr fun hnil => (hparts e he).1 ?_
      exact List.flatMap_eq_nil_iff.mp hnil e he
    rw [hjoin, regular_group_iff]
    exact ⟨fun p hp => (hpart p hp).1, fun inner hmem => (hpart _ hmem).2 inner rfl, by omega⟩

end Expr

/-! ## Queries -/

/-- **A plain word that a text has** is a plain word. -/
theorem Token.Lexes.isPlainWord {cs : List Char} {ts : List Token} (h : Lexes cs ts)
    {name : String} (hmem : .word name ∈ ts) : IsPlainWord name.toList := by
  induction h with
  | gap _ => cases hmem
  | token _ hs _ ih =>
    rcases List.mem_cons.mp hmem with hword | hmem
    · have hlexeme := (isLexeme_of_scan hs).1
      rw [← hword] at hlexeme
      cases hlexeme with
      | word hplain => simpa using hplain
    · exact ih hmem

/-- **What a text is parsed to is regular.** -/
theorem Expr.regular_of_parse {s : String} {e : Expr} (h : Expr.parse s = .ok e) : e.Regular := by
  refine (written_of_parse h).regular fun c hc => ?_
  obtain ⟨q, hd, ha, hw⟩ := exists_writes_of_parse h
  have hlexes : Token.Lexes s.toList q.tokens := Token.lexes_iff.mpr hd
  rw [hw.comparisons] at hc
  obtain ⟨t, ht, rfl⟩ := List.mem_map.mp hc
  exact Grammar.Test.proper_comparison (ha.tests t ht)
    (hlexes.isPlainWord (q.word_mem_tokens ht))

/-- **What a query is parsed to is regular**, whatever its shape. -/
theorem Query.regular_of_parse {q : Query} {e : Expr} (h : q.parse = .ok (some e)) :
    e.Regular := by
  refine of_parse (.fragment []) (fun k es hne => Expr.Regular.join k hne) (fun c _ e hc => ?_) h
  cases c with
  | text s => exact Expr.regular_of_parse hc
  | fragment doc =>
    obtain rfl := Except.ok.inj hc
    exact .fragment doc

end DocFilter
