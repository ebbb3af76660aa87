import DocFilter.Proofs.ByKey
import DocFilter.Proofs.Leaves
import DocFilter.Proofs.Paths
import DocFilter.Proofs.Refusals

/-!
# What a failure names

A failure is told with names: of a field, of a type, of a number as it is
spelled. None of them is made up. A token that is refused is shown itself,
or it is held against the field of the comparison under way, and that
field was a word of the text before (`Parser.Steps.word_mem`); so the
parser tells a failure with the words of the text and no others
(`Parser.State.Refuses.refusal`).

The translation meets fields in comparisons, under their own names and
under those that stand for them, and as keys of ready-made documents.
Documents that are merged have keys of these and of operators, and no
others (`Filter.names_of_mem_keys`), and so a constraint that collides, or
a field that has no code, is one of these as well
(`Filter.names_of_ofExpr_eq_error`).
-/

namespace DocFilter

open Document (get? keys)

/-! ## Refused tokens -/

/-- **A literal has no value only if it is a number**, one that does not
fit. -/
theorem Literal.ofRaw_eq_error {raw : RawLiteral} {position : Nat} {err : CoercionError}
    (h : Literal.ofRaw raw position = .error err) :
    ∃ spelling, raw = .number spelling ∧ (err = .integerOutOfRange position spelling
      ∨ err = .nonFiniteNumber position spelling) := by
  cases raw with
  | number spelling =>
    refine ⟨spelling, rfl, ?_⟩
    rw [Literal.ofRaw, Literal.ofNumber] at h
    split at h
    · split at h
      · split at h
        · cases h
        · exact .inr (Except.error.inj h).symm
      · exact .inr (Except.error.inj h).symm
    · split at h
      · split at h
        · cases h
        · exact .inl (Except.error.inj h).symm
      · exact .inl (Except.error.inj h).symm
  | text _ | bool _ | null => cases h

namespace Parser

/-- The field of the comparison under way. -/
def Awaiting.field? : Awaiting → Option String
  | .operator field => some field
  | .size field => some field
  | .literal field _ => some field
  | .typeName field => some field
  | .operand => none
  | .connective => none

section Fields

variable {s s' : State} {t : Token} {ts : List Token} {field : String}

/-- A step: a field is under way because it was, or because it is the word
that is taken. -/
theorem Step.field?_eq (h : Step s t s') (hfield : s'.awaiting.field? = some field) :
    s.awaiting.field? = some field ∨ t = .word field := by
  cases h with
  | field _ => exact .inr (congrArg Token.word (Option.some.inj hfield))
  | relation | pattern | typeOf | presence _ | size _ | sizeRelation => exact .inl hfield
  | openParen _ | not _ | length _ _ | literal _ _ | typeName _ | and | or | closeParen =>
    cases hfield

/-- A run: a field is under way because it was, or because it is one of
the words that are taken. -/
theorem Steps.field?_eq (h : Steps s ts s') (hfield : s'.awaiting.field? = some field) :
    s.awaiting.field? = some field ∨ .word field ∈ ts := by
  induction h with
  | nil => exact .inl hfield
  | cons hstep _ ih =>
    rcases ih hfield with hnext | hmem
    · exact (hstep.field?_eq hnext).imp_right fun heq => List.mem_cons.mpr (.inl heq.symm)
    · exact .inr (List.mem_cons_of_mem _ hmem)

/-- **The field under way is a word that was taken.** -/
theorem Steps.word_mem (h : Steps .initial ts s) (hfield : s.awaiting.field? = some field) :
    .word field ∈ ts := by
  rcases h.field?_eq hfield with hinitial | hmem
  · cases hinitial
  · exact hmem

end Fields

/-- **What the refusal of a token says**: it points at the token, or it
says what is wrong with its spelling, or with its kind for the field that
is under way. -/
inductive Refusal (field? : Option String) (t : Placed) : QueryError → Prop where
  /-- The token has no place. -/
  | place {err : ParseError} (h : err.PointsAt t) : Refusal field? t (.parse err)
  /-- The token is no type name. -/
  | typeName : Refusal field? t (.coercion (.invalidTypeName t.position t.token.typeSpelling))
  /-- The token is an integer past all bounds. -/
  | integer {spelling : String} (h : t.token = .literal (.number spelling)) :
    Refusal field? t (.coercion (.integerOutOfRange t.position spelling))
  /-- The token is a double past all bounds. -/
  | double {spelling : String} (h : t.token = .literal (.number spelling)) :
    Refusal field? t (.coercion (.nonFiniteNumber t.position spelling))
  /-- The operator does not take the literal. -/
  | kind {c : Comparison} {demand : Demand} (h : field? = some c.field) :
    Refusal field? t (.coercion (.valueKind c demand))

section Refusals

variable {s : State} {t : Placed} {field : String} {e : QueryError}

theorem refusal_refuse (field? : Option String) : Refusal field? t (s.refuse t) :=
  .place (pointsAt_refuse rfl)

theorem refusal_of_takeLiteral {op : Operator} (h : s.takeLiteral field op t = .error e) :
    Refusal (some field) t e := by
  unfold State.takeLiteral at h
  split at h
  · rename_i raw htoken
    split at h
    · rename_i err herr
      obtain rfl := Except.error.inj h
      obtain ⟨spelling, rfl, rfl | rfl⟩ := Literal.ofRaw_eq_error herr
      · exact .integer htoken
      · exact .double htoken
    · split at h
      · obtain rfl := Except.error.inj h
        exact .kind rfl
      · cases h
  · obtain rfl := Except.error.inj h
    exact refusal_refuse _

theorem refusal_of_takeTypeName (h : s.takeTypeName field t = .error e) :
    Refusal (some field) t e := by
  unfold State.takeTypeName at h
  split at h
  · unfold Literal.ofTypeToken at h
    split at h
    · rename_i err herr
      split at herr
      · cases herr
      · obtain rfl := Except.error.inj herr
        obtain rfl := Except.error.inj h
        exact .typeName
    · cases h
  · obtain rfl := Except.error.inj h
    exact refusal_refuse _

/-- Where an operand starts, a token can only be out of place. -/
theorem exists_parse_of_takeOperand (h : s.takeOperand t = .error e) : ∃ err, e = .parse err := by
  unfold State.takeOperand State.takeField at h
  repeat' split at h
  all_goals cases h
  all_goals exact ⟨_, rfl⟩

/-- So it can after a field. -/
theorem refusal_of_takeOperator (h : s.takeOperator field t = .error e) :
    Refusal (some field) t e := by
  unfold State.takeOperator at h
  repeat' split at h
  all_goals cases h
  all_goals exact refusal_refuse _

theorem refusal_of_takeConnective (h : s.takeConnective t = .error e) : Refusal none t e := by
  unfold State.takeConnective at h
  split at h
  all_goals cases h
  exact refusal_refuse _

/-- **A refusal says nothing but this.** -/
theorem State.Refuses.refusal (h : s.Refuses t e) : Refusal s.awaiting.field? t e := by
  have hplace : ∀ {err}, e = .parse err → Refusal s.awaiting.field? t e := by
    rintro err rfl
    exact .place h.pointsAt
  rcases h with ⟨-, hfinish⟩ | ⟨-, hstep⟩
  · unfold State.finish at hfinish
    split at hfinish
    · cases hfinish
    · exact hplace (Except.error.inj hfinish).symm
  · unfold State.step at hstep
    cases hs : s.awaiting with
    | operand =>
      rw [hs] at hstep hplace
      obtain ⟨err, herr⟩ := exists_parse_of_takeOperand hstep
      exact hplace herr
    | operator field =>
      rw [hs] at hstep
      exact refusal_of_takeOperator hstep
    | size field =>
      rw [hs] at hstep
      dsimp only at hstep
      split at hstep
      · cases hstep
      · exact refusal_of_takeLiteral hstep
    | literal field op =>
      rw [hs] at hstep
      exact refusal_of_takeLiteral hstep
    | typeName field =>
      rw [hs] at hstep
      exact refusal_of_takeTypeName hstep
    | connective =>
      rw [hs] at hstep
      exact refusal_of_takeConnective hstep

end Refusals

end Parser

/-! ## Fields of a translation -/

/-- The field that a failure names. -/
def FilterError.field? : FilterError → Option String
  | .fieldConflict field => some field
  | .whereConflict => none
  | .unsafeField field => some field
  | .invalidOperand c => some c.field

/-- **A name that an expression gives**: the field of a comparison, the
path that stands for it, or a key of a ready-made document. -/
inductive Expr.Names (o : Options) (e : Expr) : String → Prop where
  /-- A field. -/
  | field {c : Comparison} (h : c ∈ e.comparisons) : Names o e c.field
  /-- The path that stands for a field. -/
  | path {c : Comparison} (h : c ∈ e.comparisons) : Names o e (o.resolve c.field)
  /-- A key of a ready-made document. -/
  | key {doc : Document} {key : String} (h : doc ∈ e.fragments) (hkey : key ∈ keys doc) :
    Names o e key

namespace Expr.Names

variable {o : Options} {e e' : Expr} {name : String}

/-- More leaves give more names. -/
theorem mono (h : e.Names o name) (hc : ∀ c ∈ e.comparisons, c ∈ e'.comparisons)
    (hf : ∀ doc ∈ e.fragments, doc ∈ e'.fragments) : e'.Names o name := by
  cases h with
  | field hmem => exact .field (hc _ hmem)
  | path hmem => exact .path (hc _ hmem)
  | key hmem hkey => exact .key (hf _ hmem) hkey

theorem not (h : e.Names o name) : (Expr.not e).Names o name :=
  h.mono (fun _ hc => hc) fun _ hdoc => hdoc

theorem all {operands : List Expr} (h : e.Names o name) (he : e ∈ operands) :
    (Expr.all operands).Names o name :=
  h.mono (fun _ hc => mem_comparisonsOf he hc) fun _ hdoc => mem_fragmentsOf he hdoc

theorem any {operands : List Expr} (h : e.Names o name) (he : e ∈ operands) :
    (Expr.any operands).Names o name :=
  h.mono (fun _ hc => mem_comparisonsOf he hc) fun _ hdoc => mem_fragmentsOf he hdoc

end Expr.Names

namespace Conjunction

variable {policy : CollisionPolicy} {raw : Bool} {m m' : Conjunction} {key field : String}
  {value : Value} {doc : Document} {err : FilterError}

/-- **An entry collides under its own name**, and an operator does not
collide. -/
theorem key_of_addEntry_eq_error (h : m.addEntry policy raw key value = .error err)
    (hfield : err.field? = some field) : field = key ∧ isOperatorKey key = false := by
  cases hg : get? m.doc key with
  | none =>
    rw [addEntry_of_none hg] at h
    cases h
  | some present =>
    by_cases hw : key = whereKey
    · -- code that cannot be joined has no name
      subst hw
      rw [addEntry_of_where hg, map_eq_error_iff] at h
      unfold joinWhere at h
      repeat' split at h
      all_goals cases h
      all_goals cases hfield
    · cases hk : isOperatorKey key with
      | true =>
        rw [addEntry_of_operator hg hw hk] at h
        cases h
      | false =>
        rw [addEntry_of_field hg hk] at h
        unfold constrainAgain at h
        repeat' split at h
        all_goals cases h
        exact ⟨(Option.some.inj hfield).symm, rfl⟩

/-- So does a document under one of its keys. -/
theorem mem_keys_of_addDocument_eq_error (h : m.addDocument policy raw doc = .error err)
    (hfield : err.field? = some field) : field ∈ keys doc ∧ isOperatorKey field = false := by
  induction doc generalizing m with
  | nil => cases h
  | cons entry rest ih =>
    rw [addDocument_cons] at h
    rcases bind_eq_error_iff.mp h with hentry | ⟨m₁, -, hrest⟩
    · obtain ⟨rfl, hk⟩ := key_of_addEntry_eq_error hentry hfield
      exact ⟨List.mem_cons_self, hk⟩
    · exact (ih hrest).imp_left (List.mem_cons_of_mem _)

/-- **What is merged has the keys of its parts.** -/
theorem mem_keys_of_addDocument (h : m.addDocument policy raw doc = .ok m')
    (hkey : key ∈ keys m'.doc) : key ∈ keys m.doc ∨ key ∈ keys doc := by
  induction doc generalizing m with
  | nil =>
    obtain rfl := Except.ok.inj h
    exact .inl hkey
  | cons entry rest ih =>
    rw [addDocument_cons] at h
    obtain ⟨m₁, hentry, hrest⟩ := bind_eq_ok_iff.mp h
    rcases ih hrest with hmem | hmem
    · rw [(added_of_addEntry hentry).keys_eq] at hmem
      split at hmem
      · exact .inl hmem
      · rw [List.mem_append, List.mem_singleton] at hmem
        exact hmem.imp_right fun heq => List.mem_cons.mpr (.inl heq)
    · exact .inr (List.mem_cons_of_mem _ hmem)

/-- A finished document has at most `$and` beside them. -/
theorem mem_keys_of_mem_keys_toDocument (h : key ∈ keys m.toDocument)
    (hk : isOperatorKey key = false) : key ∈ keys m.doc := by
  by_cases hd : m.deferred = []
  · rwa [toDocument_of_nil hd] at h
  · rw [toDocument_of_ne_nil hd, Document.keys_append, List.mem_append] at h
    rcases h with hmem | hmem
    · exact Document.mem_keys_of_mem_keys_erase hmem
    · obtain rfl : key = andKey := List.mem_singleton.mp hmem
      cases hk

end Conjunction

namespace Filter

variable {o : Options} {negated : Bool} {operands : List Expr} {err : FilterError}
  {key field : String}

/-- Operands that are merged have the keys of their documents. -/
theorem exists_of_mem_keys_allOf {m m' : Conjunction} (h : allOf o negated m operands = .ok m')
    (hkey : key ∈ keys m'.doc) :
    key ∈ keys m.doc ∨ ∃ e ∈ operands, ∃ d, ofExpr o negated e = .ok d ∧ key ∈ keys d := by
  induction operands generalizing m with
  | nil =>
    rw [allOf] at h
    obtain rfl := Except.ok.inj h
    exact .inl hkey
  | cons e rest ih =>
    rw [allOf_cons] at h
    obtain ⟨d, hd, hadd⟩ := bind_eq_ok_iff.mp h
    obtain ⟨m₁, hm₁, hrest⟩ := bind_eq_ok_iff.mp hadd
    rcases ih hrest with hmem | ⟨e', he', hfound⟩
    · exact (Conjunction.mem_keys_of_addDocument hm₁ hmem).imp_right fun hmem =>
        ⟨e, List.mem_cons_self, d, hd, hmem⟩
    · exact .inr ⟨e', List.mem_cons_of_mem _ he', hfound⟩

/-- **The keys of a document are operators and names of the expression.** -/
theorem names_of_mem_keys {e : Expr} {d : Document} (h : ofExpr o negated e = .ok d)
    (hkey : key ∈ keys d) (hk : isOperatorKey key = false) : e.Names o key := by
  refine ofExpr_induction (P := fun _ e d => key ∈ keys d → e.Names o key) ?comparison ?merged
    ?listed ?not ?fragment h hkey
  case comparison =>
    intro negated c d hc hkey
    cases compared_of_ofComparison hc with
    | code _ _ =>
      obtain rfl : key = whereKey := List.mem_singleton.mp hkey
      cases hk
    | operator _ _ | literal _ =>
      obtain rfl : key = o.resolve c.field := List.mem_singleton.mp hkey
      exact .path List.mem_cons_self
  case merged =>
    intro negated e operands m he ih hm hkey
    have hmem := Conjunction.mem_keys_of_mem_keys_toDocument hkey hk
    rcases exists_of_mem_keys_allOf hm hmem with hempty | ⟨e', he', d, hd, hmem⟩
    · cases hempty
    · have hnames := ih e' he' d hd hmem
      cases he with
      | all _ => exact hnames.all he'
      | any _ => exact hnames.any he'
  case listed =>
    intro negated e operands items _ _ _ hkey
    obtain rfl : key = orKey := List.mem_singleton.mp hkey
    cases hk
  case not =>
    intro negated operand d ih hkey
    exact (ih hkey).not
  case fragment =>
    intro negated doc d hd hkey
    rw [ofExpr] at hd
    split at hd
    · obtain rfl := Except.ok.inj hd
      obtain rfl : key = norKey := List.mem_singleton.mp hkey
      cases hk
    · obtain rfl := Except.ok.inj hd
      exact .key List.mem_cons_self hkey

/-- **A comparison fails under its field**, or the path of it. -/
theorem names_of_ofComparison_eq_error {c : Comparison} (h : ofComparison o negated c = .error err)
    (hfield : err.field? = some field) : field = c.field ∨ field = o.resolve c.field := by
  have hpath : ∀ {α : Type} {f : String → α},
      (Predicate.path (o.resolve c.field)).map f = .error err → field = o.resolve c.field := by
    intro α f hmap
    obtain ⟨rfl, -⟩ := Predicate.path_eq_error_iff.mp (map_eq_error_iff.mp hmap)
    exact (Option.some.inj hfield).symm
  unfold ofComparison at h
  dsimp only at h
  split at h
  · rename_i type _ _
    cases hcode : Predicate.ofType (o.resolve c.field) type with
    | error err' =>
      rw [hcode] at h
      obtain rfl := Except.error.inj h
      exact .inr (hpath hcode)
    | ok code =>
      rw [hcode] at h
      cases h
  · cases h
  · split at h <;> cases h
  · split at h
    · cases h
    · exact .inr (hpath (map_eq_error_iff.mp h))
  · split at h
    · obtain rfl := Except.error.inj h
      exact .inl (Option.some.inj hfield).symm
    · split at h <;> cases h

/-- Operands of an `or` fail because one of them does. -/
theorem exists_of_anyOf_eq_error (h : anyOf o negated operands = .error err) :
    ∃ e ∈ operands, ofExpr o negated e = .error err := by
  induction operands with
  | nil =>
    rw [anyOf] at h
    cases h
  | cons e rest ih =>
    rw [anyOf_cons] at h
    rcases bind_eq_error_iff.mp h with he | ⟨d, -, hrest⟩
    · exact ⟨e, List.mem_cons_self, he⟩
    · obtain ⟨e', he', herr⟩ := ih (map_eq_error_iff.mp hrest)
      exact ⟨e', List.mem_cons_of_mem _ he', herr⟩

/-- Operands of an `and` fail under a name that one of them gives: one of
them fails, or its document collides. -/
theorem exists_names_of_allOf_eq_error {m : Conjunction}
    (h : allOf o negated m operands = .error err) (hfield : err.field? = some field)
    (ih : ∀ e ∈ operands, ofExpr o negated e = .error err → e.Names o field) :
    ∃ e ∈ operands, e.Names o field := by
  induction operands generalizing m with
  | nil =>
    rw [allOf] at h
    cases h
  | cons e rest ihrest =>
    rw [allOf_cons] at h
    rw [List.forall_mem_cons] at ih
    rcases bind_eq_error_iff.mp h with he | ⟨d, hd, hadd⟩
    · exact ⟨e, List.mem_cons_self, ih.1 he⟩
    · rcases bind_eq_error_iff.mp hadd with hcollides | ⟨m₁, -, hrest⟩
      · obtain ⟨hkey, hk⟩ := Conjunction.mem_keys_of_addDocument_eq_error hcollides hfield
        exact ⟨e, List.mem_cons_self, names_of_mem_keys hd hkey hk⟩
      · obtain ⟨e', he', hnames⟩ := ihrest hrest ih.2
        exact ⟨e', List.mem_cons_of_mem _ he', hnames⟩

/-- **A translation fails under a name that the expression gives.** -/
theorem names_of_ofExpr_eq_error {e : Expr} (h : ofExpr o negated e = .error err)
    (hfield : err.field? = some field) : e.Names o field := by
  induction e using Expr.induction generalizing negated with
  | comparison c =>
    rw [ofExpr] at h
    rcases names_of_ofComparison_eq_error h hfield with rfl | rfl
    · exact .field List.mem_cons_self
    · exact .path List.mem_cons_self
  | all operands ih =>
    cases negated with
    | false =>
      rw [ofExpr_all, map_eq_error_iff] at h
      obtain ⟨e, he, hnames⟩ := exists_names_of_allOf_eq_error h hfield fun e he => ih e he
      exact hnames.all he
    | true =>
      rw [ofExpr_not_all, map_eq_error_iff] at h
      obtain ⟨e, he, herr⟩ := exists_of_anyOf_eq_error h
      exact (ih e he herr).all he
  | any operands ih =>
    cases negated with
    | false =>
      rw [ofExpr_any, map_eq_error_iff] at h
      obtain ⟨e, he, herr⟩ := exists_of_anyOf_eq_error h
      exact (ih e he herr).any he
    | true =>
      rw [ofExpr_not_any, map_eq_error_iff] at h
      obtain ⟨e, he, hnames⟩ := exists_names_of_allOf_eq_error h hfield fun e he => ih e he
      exact hnames.any he
  | not operand ih =>
    rw [ofExpr] at h
    exact (ih h).not
  | fragment doc =>
    rw [ofExpr] at h
    split at h <;> cases h

end Filter

end DocFilter
