import Mathlib
import Listing.Proofs.Success
import Listing.Sample.Users

/-! Rulebooks that grow.
Each rule that is added takes over the relations that it serves. So the rule for a relation is the
last that was ever added for it, in whatever portions the rules were added, and a relation without a
rule is one that none of them serves. That rule alone makes the clause, and it decides whether the
value is brought to the column's type, whatever the rules before it did. -/
namespace Listing.Store
open Sample

/-- What a rule compares with: the value brought to the column's type, if the rule wants that and
there is a value, else the operand as it is. -/
def Rule.handed (s : Rule) (column : Column) (c : Condition) : Except Rejection Operand :=
  if s.converts = true ∧ c.operand ≠ .one .null then column.type.readOperand c.field c.operand
  else .ok c.operand

theorem Schema.operand_eq_handed (s : Rule) (column : Column) (c : Condition) :
    operand s column c = s.handed column c := by
  rw [operand, Rule.handed]
  by_cases hnull : c.operand = .one .null
  · have hread : column.type.readOperand c.field (.one .null) = .ok (.one .null) := rfl
    simp only [hnull, hread, ne_eq, not_true_eq_false, and_false, ite_self]
  · simp only [hnull, ne_eq, not_false_eq_true, and_true]

namespace Rulebook

/-- A rule of a history that serves a relation and is followed by none that does. -/
def IsLatest (history : List Rule) (relation : Relation) (s : Rule) : Prop :=
  ∃ earlier later, history = earlier ++ s :: later ∧ relation ∈ s.serves ∧
    ∀ t ∈ later, relation ∉ t.serves

/-- A table of rules, in which a rule is written under each relation it serves, over what stands
there. -/
def enter (table : Relation → Option Rule) (s : Rule) : Relation → Option Rule :=
  s.serves.foldl (fun table relation => Function.update table relation (some s)) table

def entered (history : List Rule) : Relation → Option Rule := history.foldl enter fun _ => none

def grown (initial : List Rule) (additions : List (List Rule)) : Rulebook :=
  additions.foldl addAll (ofList initial)

variable {initial : List Rule} {additions : List (List Rule)} {history : List Rule}
  {relation : Relation} {s t : Rule}

theorem foldl_update (relations : List Relation) (table : Relation → Option Rule) :
    relations.foldl (fun table r => Function.update table r (some s)) table relation =
      if relation ∈ relations then some s else table relation := by
  induction relations generalizing table with
  | nil => rfl
  | cons r rs ih =>
    rw [List.foldl_cons, ih, Function.update_apply]
    by_cases hr : relation = r <;> by_cases hrs : relation ∈ rs <;> simp [hr, hrs]

theorem enter_apply (table : Relation → Option Rule) (s : Rule) (relation : Relation) :
    enter table s relation = if relation ∈ s.serves then some s else table relation :=
  foldl_update s.serves table

theorem enter_comm (h : s.serves.Disjoint t.serves) (table : Relation → Option Rule) :
    enter (enter table s) t = enter (enter table t) s := by
  funext relation
  simp only [enter_apply]
  by_cases hs : relation ∈ s.serves
  · rw [if_pos hs, if_pos hs, if_neg (h hs)]
  · rw [if_neg hs, if_neg hs]

theorem entered_concat (history : List Rule) (s : Rule) :
    entered (history ++ [s]) = enter (entered history) s := by
  rw [entered, List.foldl_append]
  rfl

theorem entered_exchange (h : s.serves.Disjoint t.serves) (earlier later : List Rule) :
    entered (earlier ++ t :: s :: later) = entered (earlier ++ s :: t :: later) := by
  simp only [entered, List.foldl_append, List.foldl_cons, enter_comm h]

theorem ofList_concat (history : List Rule) (s : Rule) :
    ofList (history ++ [s]) = (ofList history).add s := by
  rw [ofList, addAll_append]
  rfl

theorem find?_ofList (history : List Rule) (relation : Relation) :
    (ofList history).find? relation = entered history relation := by
  induction history using List.reverseRecOn with
  | nil => rfl
  | append_singleton history s ih =>
    rw [ofList_concat, find?_add, ih, entered_concat, enter_apply]
    simp only [List.contains_iff_mem]

theorem rules_ofList (history : List Rule) : (ofList history).rules = history.reverse := by
  induction history using List.reverseRecOn with
  | nil => rfl
  | append_singleton history s ih => rw [ofList_concat, add, ih, List.reverse_concat]

theorem find?_eq_some_iff :
    (ofList history).find? relation = some s ↔ IsLatest history relation s := by
  rw [find?, rules_ofList, List.find?_eq_some_iff_append, List.contains_iff_mem]
  constructor
  · intro h
    obtain ⟨hs, later, earlier, hsplit, hlater⟩ := h
    refine ⟨earlier.reverse, later.reverse, ?_, hs, fun t ht => ?_⟩
    · rw [← history.reverse_reverse, hsplit]
      simp
    · simpa using hlater t (List.mem_reverse.mp ht)
  · intro h
    obtain ⟨earlier, later, rfl, hs, hlater⟩ := h
    refine ⟨hs, later.reverse, earlier.reverse, by simp, fun t ht => ?_⟩
    simpa using hlater t (List.mem_reverse.mp ht)

theorem find?_eq_none_iff :
    (ofList history).find? relation = none ↔ ∀ s ∈ history, relation ∉ s.serves := by
  rw [find?, rules_ofList, List.find?_eq_none]
  simp

theorem find?_addAll_of_not_serves (book : Rulebook) {ss : List Rule}
    (h : ∀ s ∈ ss, relation ∉ s.serves) :
    (book.addAll ss).find? relation = book.find? relation := by
  induction ss generalizing book with
  | nil => rfl
  | cons s ss ih =>
    rw [List.forall_mem_cons] at h
    rw [addAll, List.foldl_cons, ← addAll, ih _ h.2, find?_add,
      if_neg fun hs => h.1 (List.contains_iff_mem.mp hs)]

theorem rule_congr {book book' : Rulebook} (h : book.find? relation = book'.find? relation) :
    book.rule relation = book'.rule relation := by
  rw [rule, rule, h]

theorem rule_eq_ok {book : Rulebook} :
    book.rule relation = .ok s ↔ book.find? relation = some s := by
  rw [rule]
  cases book.find? relation <;> simp

theorem rule_eq_error {book : Rulebook} {e : Fault} :
    book.rule relation = .error e ↔
      book.find? relation = none ∧ e = .unsupportedRelation relation := by
  rw [rule]
  cases book.find? relation <;> simp [eq_comm]

theorem grown_eq_ofList (initial : List Rule) (additions : List (List Rule)) :
    grown initial additions = ofList (initial ++ additions.flatten) := by
  induction additions generalizing initial with
  | nil => rw [List.flatten_nil, List.append_nil, grown, List.foldl_nil]
  | cons ss additions ih =>
    have hfirst : addAll (ofList initial) ss = ofList (initial ++ ss) :=
      (addAll_append _ initial ss).symm
    rw [grown, List.foldl_cons, hfirst, ← grown, ih, List.flatten_cons, List.append_assoc]

theorem rule_grown_eq_ok :
    (grown initial additions).rule relation = .ok s ↔
      IsLatest (initial ++ additions.flatten) relation s := by
  rw [grown_eq_ofList, rule_eq_ok, find?_eq_some_iff]

theorem rule_grown_eq_error {e : Fault} :
    (grown initial additions).rule relation = .error e ↔
      (∀ s ∈ initial ++ additions.flatten, relation ∉ s.serves) ∧
        e = .unsupportedRelation relation := by
  rw [grown_eq_ofList, rule_eq_error, find?_eq_none_iff]

theorem rule_grown_exchange (h : s.serves.Disjoint t.serves) {earlier later : List Rule}
    (hs : initial ++ additions.flatten = earlier ++ s :: t :: later) {initial' : List Rule}
    {additions' : List (List Rule)}
    (ht : initial' ++ additions'.flatten = earlier ++ t :: s :: later) (relation : Relation) :
    (grown initial' additions').rule relation = (grown initial additions).rule relation := by
  refine rule_congr ?_
  rw [grown_eq_ofList, grown_eq_ofList, hs, ht, find?_ofList, find?_ofList, entered_exchange h]

/-- What the history of a rulebook decides, and that nothing else does. -/
structure FollowsHistory (initial : List Rule) (additions : List (List Rule)) : Prop where
  latest : ∀ relation s, (grown initial additions).rule relation = .ok s ↔
    IsLatest (initial ++ additions.flatten) relation s
  missing : ∀ relation e, (grown initial additions).rule relation = .error e ↔
    (∀ s ∈ initial ++ additions.flatten, relation ∉ s.serves) ∧ e = .unsupportedRelation relation
  table : ∀ relation, (grown initial additions).find? relation =
    entered (initial ++ additions.flatten) relation
  elsewhere : ∀ ss relation, (∀ s ∈ ss, relation ∉ s.serves) →
    ((grown initial additions).addAll ss).rule relation = (grown initial additions).rule relation
  regrouped : ∀ initial' additions',
    initial' ++ additions'.flatten = initial ++ additions.flatten →
      grown initial' additions' = grown initial additions
  exchanged : ∀ earlier s t later,
    initial ++ additions.flatten = earlier ++ s :: t :: later → s.serves.Disjoint t.serves →
      ∀ initial' additions', initial' ++ additions'.flatten = earlier ++ t :: s :: later →
        ∀ relation, (grown initial' additions').rule relation =
          (grown initial additions).rule relation
  clause : ∀ (h : Schema) (c : Condition) (s : Rule), h.rules = grown initial additions →
    IsLatest (initial ++ additions.flatten) c.relation s →
      h.clause c = do
        let column ← (h.column c.field).mapError Fault.rejected
        let v ← (s.handed column c).mapError Fault.rejected
        s.apply c.relation column v
  noClause : ∀ (h : Schema) (c : Condition), h.rules = grown initial additions →
    (∀ s ∈ initial ++ additions.flatten, c.relation ∉ s.serves) →
      h.clause c = .error (.unsupportedRelation c.relation)

theorem grown_followsHistory (initial : List Rule) (additions : List (List Rule)) :
    FollowsHistory initial additions where
  latest _ _ := rule_grown_eq_ok
  missing _ _ := rule_grown_eq_error
  table relation := by rw [grown_eq_ofList, find?_ofList]
  elsewhere _ _ h := rule_congr (find?_addAll_of_not_serves _ h)
  regrouped _ _ h := by rw [grown_eq_ofList, grown_eq_ofList, h]
  exchanged _ _ _ _ hs h _ _ ht := rule_grown_exchange h hs ht
  clause h c s hrules hs := by
    rw [Schema.clause, hrules, rule_grown_eq_ok.mpr hs]
    simp only [Schema.operand_eq_handed]
    rfl
  noClause h c hrules hnone := by
    rw [Schema.clause, hrules, rule_grown_eq_error.mpr ⟨hnone, rfl⟩]
    rfl

/-- Rules that overlap: the raw comparison takes over from the standard one, and the pattern in
lower case from the pattern, with a rule between them that serves nothing. -/
def overlappingAdditions : List (List Rule) := [[.rawComparison, .idle], [], [.lowerPattern]]

theorem grown_followsHistory_overlapping :
    let book := grown [.comparison, .pattern] overlappingAdditions
    book.rule .like = .ok .lowerPattern ∧
      book.rule .oneOf = .error (.unsupportedRelation .oneOf) ∧
      (book.addAll [.membership, .nullCheck]).rule .gte = .ok .rawComparison ∧
      (grown [.comparison, .pattern, .lowerPattern] [[.rawComparison]]).rule .gte =
        (grown [.comparison, .pattern] [[.rawComparison, .lowerPattern]]).rule .gte ∧
      ({ usersSchema with rules := book } : Schema).clause ⟨"age", .gte, .one (.text "30")⟩ =
        .ok (.compare ⟨"users", "age", .integer⟩ .ge (.one (.text "30"))) := by
  have h := grown_followsHistory [.comparison, .pattern] overlappingAdditions
  have hlike : IsLatest ([.comparison, .pattern] ++ overlappingAdditions.flatten) .like
      .lowerPattern :=
    ⟨[.comparison, .pattern, .rawComparison, .idle], [], rfl, by decide, List.forall_mem_nil _⟩
  have hgte : IsLatest ([.comparison, .pattern] ++ overlappingAdditions.flatten) .gte
      .rawComparison := by
    refine ⟨[.comparison, .pattern], [.idle, .lowerPattern], rfl, by decide, ?_⟩
    simp only [List.forall_mem_cons]
    decide
  have hdisjoint : Rule.rawComparison.serves.Disjoint Rule.lowerPattern.serves :=
    List.disjoint_left.mpr (by decide)
  refine ⟨(h.latest _ _).mpr hlike, (h.missing _ _).mpr ⟨?_, rfl⟩, ?_, ?_, ?_⟩
  · simp only [overlappingAdditions, List.flatten_cons, List.flatten_nil, List.cons_append,
      List.nil_append, List.forall_mem_cons]
    decide
  · rw [h.elsewhere _ _ ?_]
    · exact (h.latest _ _).mpr hgte
    · simp only [List.forall_mem_cons]
      decide
  · exact (grown_followsHistory [.comparison, .pattern] [[.rawComparison, .lowerPattern]]).exchanged
      [.comparison, .pattern] _ _ [] rfl hdisjoint _ _ rfl _
  · rw [h.clause _ _ _ rfl hgte]
    rfl

end Rulebook
end Listing.Store
