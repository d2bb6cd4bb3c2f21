import Mathlib
import Listing.Proofs.Refusal

/-! Names of parameters that state filters.
A name states a filter exactly if it is the written name of the filter's field and operator, or is
that name with one line feed at its end. Parameters are read one by one: one whose name states a
filter adds this filter, or is turned down as a list without an item, and one with any other name
adds nothing. Hence two names state one filter only if they differ by that line feed. -/
namespace Listing
open Listing.Parameter

structure Bracket.States (filterKey key field : String) (o : Operator) : Prop where
  isLabel : IsLabel field.toList
  known : o ∈ Operator.all
  written : key = name filterKey field o.name ∨ key = name filterKey field o.name ++ lineFeed

namespace Asked
variable {filterKey : String}

def ofParameter? (filterKey : String) (p : String × String) : Option Asked :=
  (Bracket.parts? filterKey p.1).bind fun n =>
    (Operator.ofName? n.2).map fun o => ⟨n.1, o, .text p.2⟩

theorem ofParameter?_of_states {key field : String} {o : Operator}
    (h : Bracket.States filterKey key field o) (text : String) :
    ofParameter? filterKey (key, text) = some ⟨field, o, .text text⟩ := by
  have hparts : Bracket.parts? filterKey key = some (field, o.name) :=
    Bracket.parts?_eq_some_iff.mpr ⟨h.isLabel, Bracket.isLabel_name h.known, h.written⟩
  simp [ofParameter?, hparts, Operator.ofName?_name h.known]

theorem states_of_ofParameter? {key text : String} {a : Asked}
    (h : ofParameter? filterKey (key, text) = some a) :
    Bracket.States filterKey key a.field a.operator := by
  obtain ⟨⟨field, name⟩, hparts, h⟩ := Option.bind_eq_some_iff.mp h
  obtain ⟨o, hname, rfl⟩ := Option.map_eq_some_iff.mp h
  obtain ⟨ho, rfl⟩ := Operator.ofName?_eq_some hname
  obtain ⟨hfield, -, hkey⟩ := Bracket.parts?_eq_some_iff.mp hparts
  exact ⟨hfield, ho, hkey⟩

theorem asked?_ofFlat (filterKey : String) (p : String × String) :
    (Reading.ofFlat filterKey p.1 (.text p.2)).filterMap Reading.asked? =
      (ofParameter? filterKey p).toList := by
  rw [Reading.ofFlat, ofParameter?]
  cases Bracket.parts? filterKey p.1 with
  | none =>
    dsimp only
    split <;> rfl
  | some n =>
    simp only [Reading.ofName, Option.bind_some]
    cases Operator.ofName? n.2 <;> rfl

theorem asked?_textEntries (filterKey : String) (ps : List (String × String)) :
    (Reading.ofEntries filterKey (textEntries ps)).filterMap Reading.asked? =
      ps.filterMap (ofParameter? filterKey) := by
  rw [Reading.ofEntries, textEntries, List.flatMap_map, List.filterMap_flatMap,
    List.filterMap_eq_flatMap_toList]
  exact List.flatMap_congr fun p _ => asked?_ofFlat filterKey p

end Asked

namespace Grammar
variable {filterKey : String}

theorem bracket_read {s : Source} {entries : List Entry} (h : s.entries = .ok entries) :
    (bracket filterKey).read s =
      (((Reading.ofEntries filterKey entries).filterMap Reading.asked?).mapM
        Asked.read).mapError Fault.rejected := by
  rw [← Filter.ofReadings_eq_mapM, read, h]
  rfl

theorem bracket_read_texts {s : Source} {ps : List (String × String)}
    (h : s.entries = .ok (textEntries ps)) :
    (bracket filterKey).read s =
      ((ps.filterMap (Asked.ofParameter? filterKey)).mapM Asked.read).mapError Fault.rejected := by
  rw [bracket_read h, Asked.asked?_textEntries]

def readOne (g : Grammar) (key text : String) : Except Fault (List Filter) :=
  g.read (.pairs [(key, .text text)])

theorem bracket_readOne (filterKey key text : String) :
    (bracket filterKey).readOne key text =
      ((Asked.ofParameter? filterKey (key, text)).toList.mapM Asked.read).mapError
        Fault.rejected := by
  have hentries : (Source.pairs [(key, .text text)]).entries = .ok (textEntries [(key, text)]) := by
    simp [Source.entries, mergePairs, distinctKeys, List.eraseDups_cons, lastOf, textEntries]
  rw [readOne, bracket_read_texts hentries]
  cases h : Asked.ofParameter? filterKey (key, text) <;> simp [h]

theorem bracket_read_eq_mapM {s : Source} (h : s.Flat) :
    (bracket filterKey).read s =
      (s.parameters.mapM fun p => (bracket filterKey).readOne p.1 p.2).map List.flatten := by
  simp only [bracket_readOne]
  rw [bracket_read_texts h.entries, mapM_filterMap, mapError_map, mapError_mapM]

section Stated
variable {key text field : String} {o : Operator}

theorem readOne_of_states (h : Bracket.States filterKey key field o) (text : String) :
    (bracket filterKey).readOne key text =
      ((⟨field, o, .text text⟩ : Asked).read.map fun f => [f]).mapError Fault.rejected := by
  rw [bracket_readOne, Asked.ofParameter?_of_states h, Option.toList_some, List.mapM_cons]
  cases (⟨field, o, .text text⟩ : Asked).read <;> rfl

theorem readOne_eq_nil_iff :
    (bracket filterKey).readOne key text = .ok [] ↔
      ¬ ∃ field o, Bracket.States filterKey key field o := by
  constructor
  · intro h hstates
    obtain ⟨field, o, hstates⟩ := hstates
    rw [readOne_of_states hstates, mapError_eq_ok, map_eq_ok] at h
    obtain ⟨f, -, hnil⟩ := h
    cases hnil
  · intro h
    have hnone : Asked.ofParameter? filterKey (key, text) = none := by
      rw [Option.eq_none_iff_forall_ne_some]
      intro a ha
      exact h ⟨a.field, a.operator, Asked.states_of_ofParameter? ha⟩
    rw [bracket_readOne, hnone]
    rfl

end Stated

structure ReadsByName (filterKey : String) : Prop where
  filter : ∀ key field o text, Bracket.States filterKey key field o →
    (⟨field, o, .text text⟩ : Asked).isEmptyList = false →
    (bracket filterKey).readOne key text = .ok [(⟨field, o, .text text⟩ : Asked).filter]
  emptyList : ∀ key field o text, Bracket.States filterKey key field o →
    (⟨field, o, .text text⟩ : Asked).isEmptyList = true →
    (bracket filterKey).readOne key text = .error (.rejected (.noMember field))
  passedOver : ∀ key text, (bracket filterKey).readOne key text = .ok [] ↔
    ¬ ∃ field o, Bracket.States filterKey key field o
  together : ∀ s : Source, s.Flat → (bracket filterKey).read s =
    (s.parameters.mapM fun p => (bracket filterKey).readOne p.1 p.2).map List.flatten
  /-- Of two names that state one filter, one is the other with a line feed at its end. -/
  apart : ∀ key key' field o, Bracket.States filterKey key field o →
    Bracket.States filterKey key' field o → key ≠ key' →
    key = key' ++ Bracket.lineFeed ∨ key' = key ++ Bracket.lineFeed

theorem bracket_readsByName (filterKey : String) : ReadsByName filterKey where
  filter key field o text hstates hitems := by
    rw [readOne_of_states hstates, Asked.read_eq_filter hitems]
    rfl
  emptyList key field o text hstates hitems := by
    rw [readOne_of_states hstates, Asked.read_of_isEmptyList hitems]
    rfl
  passedOver key text := readOne_eq_nil_iff
  together s hs := bracket_read_eq_mapM hs
  apart key key' field o h h' hne := by
    rcases h.written with rfl | rfl <;> rcases h'.written with rfl | rfl
    · exact absurd rfl hne
    · exact .inr rfl
    · exact .inl rfl
    · exact absurd rfl hne

/-- Behind a key with brackets and dots: a filter, a list without an item, an operator in another
case, and a name that the key as a pattern would match. -/
theorem bracket_readsByName_dottedKey :
    (bracket "f[a].*").readOne "f[a].*[role][eq]" "admin" = .ok [⟨"role", .eq, .single "admin"⟩] ∧
      (bracket "f[a].*").readOne "f[a].*[role][in]" " , ," = .error (.rejected (.noMember "role")) ∧
      (¬ ∃ field o, Bracket.States "f[a].*" "f[a].*[role][EQ]" field o) ∧
      ¬ ∃ field o, Bracket.States "f[a].*" "fabc[role][eq]" field o := by
  have hreads := bracket_readsByName "f[a].*"
  have hlabel : Bracket.IsLabel "role".toList := by decide
  refine ⟨?_, ?_, ?_, ?_⟩
  · exact hreads.filter _ "role" .eq "admin" ⟨hlabel, by decide, .inl (by decide)⟩ (by decide)
  · exact hreads.emptyList _ "role" .oneOf " , ," ⟨hlabel, by decide, .inl (by decide)⟩ (by decide)
  · exact (hreads.passedOver "f[a].*[role][EQ]" "admin").mp (by decide +kernel)
  · exact (hreads.passedOver "fabc[role][eq]" "admin").mp (by decide +kernel)

/-- A name that no field and operator are written as is read as a filter, and as the same one as a
name of its own. -/
theorem bracket_reads_lineFeedName :
    (∀ field operator, "filter[role][eq]\n" ≠ Bracket.name "filter" field operator) ∧
      (bracket "filter").read (.ofTexts [("filter[role][eq]\n", "a")]) =
        .ok [⟨"role", .eq, .single "a"⟩] ∧
      (bracket "filter").read
          (.ofTexts [("filter[role][eq]", "a"), ("filter[role][eq]\n", "b")]) =
        .ok [⟨"role", .eq, .single "a"⟩, ⟨"role", .eq, .single "b"⟩] := by
  refine ⟨?_, by decide +kernel, by decide +kernel⟩
  intro field operator h
  exact Bracket.name_ne_name_lineFeed "filter" field operator "role" "eq" h.symm

end Grammar
end Listing
