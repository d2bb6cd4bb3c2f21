import Mathlib
import Listing.Report
import Listing.Proofs.Admission
import Listing.Sample.Users

/-! What the sender of a request is told about fields that may not be filtered on.
The request is turned down for all of them at once, in the order in which they are first asked for.
The report has one message for each, is headed by the first of these, and suggests admitted names
that come close. One name stands for the request as a whole: a field that is called so has its
message like any other, but the list of the fields at fault leaves it out. -/
namespace Listing

/-- The members of a list that have a property, each once and in the order of their first places. -/
structure IsFirstSeen (l : List String) (p : String → Prop) (names : List String) : Prop where
  mem : ∀ f, f ∈ names ↔ f ∈ l ∧ p f
  ordered : names.Pairwise fun f g => l.idxOf f < l.idxOf g

theorem pairwise_idxOf_cons {a : String} {l names : List String} (ha : a ∉ names)
    (h : names.Pairwise fun f g => l.idxOf f < l.idxOf g) :
    names.Pairwise fun f g => (a :: l).idxOf f < (a :: l).idxOf g := by
  refine h.imp_of_mem fun hf hg hlt => ?_
  have hne {b : String} (hb : b ∈ names) : a ≠ b := fun he => ha (he ▸ hb)
  rw [List.idxOf_cons_ne _ (hne hf), List.idxOf_cons_ne _ (hne hg)]
  exact Nat.succ_lt_succ hlt

theorem pairwise_idxOf_eraseDups (p : String → Bool) (l : List String) :
    (l.filter p).eraseDups.Pairwise fun f g => l.idxOf f < l.idxOf g := by
  -- for all properties at once: behind a name that is kept, only names other than it are kept
  induction l generalizing p with
  | nil => exact .nil
  | cons a l ih =>
    cases hp : p a with
    | false =>
      rw [List.filter_cons_of_neg (by simp [hp])]
      refine pairwise_idxOf_cons (fun ha => ?_) (ih p)
      rw [List.mem_eraseDups, List.mem_filter, hp] at ha
      cases ha.2
    | true =>
      rw [List.filter_cons_of_pos hp, List.eraseDups_cons, List.filter_filter]
      refine List.pairwise_cons.mpr ⟨fun g hg => ?_, pairwise_idxOf_cons (fun ha => ?_) (ih _)⟩
      · have hne : g ≠ a := by
          simp only [List.mem_eraseDups, List.mem_filter, Bool.and_eq_true, Bool.not_eq_true',
            beq_eq_false_iff_ne] at hg
          exact hg.2.1
        rw [List.idxOf_cons_self, List.idxOf_cons_ne _ hne.symm]
        exact Nat.succ_pos _
      · simp at ha

namespace Report

theorem addMessage_of_not_mem {field message : String} {details : List (String × List String)}
    (h : field ∉ details.map (·.1)) :
    addMessage field message details = details ++ [(field, [message])] := by
  induction details with
  | nil => rfl
  | cons d r ih =>
    rw [List.map_cons, List.mem_cons, not_or] at h
    rw [addMessage, if_neg (Ne.symm h.1), ih h.2]
    rfl

theorem headline_of_first {message : String} (h : message ≠ "") (field : String)
    (r : List (String × List String)) : headline "" ((field, [message]) :: r) = message := by
  have hfirst : firstMessage? ((field, [message]) :: r) = some message := rfl
  simp [headline, hfirst, h]

inductive Member
  | text (s : String)
  | names (ns : List (String × List String))

def Member.json : Member → String
  | text s => jsonText s
  | names ns => jsonNames ns

def members (r : Report) : List (String × Member) :=
  [("error", .text code), ("message", .text r.message), ("details", .names r.details)] ++
    if r.suggestions.isEmpty then [] else [("suggestions", .names r.suggestions)]

theorem json_eq_members (r : Report) :
    r.json = jsonObject (r.members.map fun m => (m.1, m.2.json)) := by
  rw [json, members]
  cases r.suggestions.isEmpty <;> rfl

theorem lookup_details (r : Report) : r.members.lookup "details" = some (.names r.details) := rfl

theorem lookup_suggestions (r : Report) :
    r.members.lookup "suggestions" =
      if r.suggestions = [] then none else some (.names r.suggestions) := by
  rw [members]
  cases r.suggestions <;> rfl

theorem fields_eq_iff {r : Report} {names : List String} (h : r.details.map (·.1) = names) :
    r.fields = names ↔ root ∉ names := by
  rw [fields, h, List.filter_eq_self]
  constructor
  · intro hall hroot
    simpa using hall root hroot
  · intro hroot f hf
    exact bne_iff_ne.mpr fun he => hroot (he ▸ hf)

end Report

namespace Rejection

theorem detailsOf_of_nodup (message : String → String) {fields : List String} (h : fields.Nodup) :
    detailsOf message fields = fields.map fun f => (f, [message f]) := by
  -- from the end, where a field that has no message yet gets its place
  induction fields using List.reverseRecOn with
  | nil => rfl
  | append_singleton fs f ih =>
    rw [List.nodup_append] at h
    have hf : f ∉ (fs.map fun g => (g, [message g])).map (·.1) := by
      rw [List.map_map]
      simpa using fun hm => h.2.2 f hm f List.mem_cons_self rfl
    rw [detailsOf, List.foldl_append, ← detailsOf, ih h.1, List.map_append]
    exact Report.addMessage_of_not_mem hf

theorem unknownMessage_ne_empty (allowed : List String) (field : String) :
    unknownMessage allowed field ≠ "" := by
  unfold unknownMessage
  dsimp only
  split <;> simp

theorem mem_of_mem_suggestionsFor {allowed : List String} {field x : String}
    (h : x ∈ suggestionsFor allowed field) : x ∈ allowed :=
  mem_sorted.mp (Text.Similarity.mem_of_mem_closest h)

variable {names allowed : List String}

theorem details_unknownFields (h : names.Nodup) :
    (unknownFields names allowed).report.details =
      names.map fun f => (f, [unknownMessage allowed f]) :=
  detailsOf_of_nodup (unknownMessage allowed) h

theorem detailed_unknownFields (h : names.Nodup) :
    (unknownFields names allowed).report.details.map (·.1) = names := by
  rw [details_unknownFields h, List.map_map]
  exact List.map_id' names

theorem message_unknownFields (hne : names ≠ []) (h : names.Nodup) :
    names.head?.map (unknownMessage allowed) =
      some (unknownFields names allowed).report.message := by
  cases names with
  | nil => exact absurd rfl hne
  | cons f fs =>
    have hfirst := Report.headline_of_first (unknownMessage_ne_empty allowed f) f
      (fs.map fun f => (f, [unknownMessage allowed f]))
    rw [report, detailsOf_of_nodup _ h, List.map_cons, hfirst]
    rfl

theorem mem_suggestions_unknownFields {f : String} {close : List String} :
    (f, close) ∈ (unknownFields names allowed).report.suggestions ↔
      f ∈ names ∧ close ≠ [] ∧ close = suggestionsFor allowed f := by
  rw [report, List.mem_filter, List.mem_map]
  constructor
  · intro h
    obtain ⟨⟨g, hg, he⟩, hclose⟩ := h
    cases he
    exact ⟨List.mem_eraseDups.mp hg, by simpa using hclose, rfl⟩
  · intro h
    obtain ⟨hf, hclose, rfl⟩ := h
    exact ⟨⟨f, List.mem_eraseDups.mpr hf, rfl⟩, by simpa using hclose⟩

theorem suggestions_unknownFields_nodup (names allowed : List String) :
    ((unknownFields names allowed).report.suggestions.map (·.1)).Nodup := by
  have hall : (names.eraseDups.map fun f => (f, suggestionsFor allowed f)).map (·.1) =
      names.eraseDups := by
    rw [List.map_map]
    exact List.map_id' _
  rw [report]
  refine List.Nodup.sublist (List.Sublist.map _ List.filter_sublist) ?_
  rw [hall]
  exact Parameter.nodup_eraseDups names

end Rejection

/-- What a report tells of fields that may not be filtered on: each with its message and the names
that come close to it, but in the list of fields none called like the request as a whole. -/
structure Report.TellsOf (w : Allowlist) (names : List String) (r : Report) : Prop where
  details : r.details = names.map fun f =>
    (f, [Rejection.unknownMessage w.filterFields.eraseDups f])
  message : names.head?.map (Rejection.unknownMessage w.filterFields.eraseDups) = some r.message
  fields : r.fields = names.filter (· != root)
  complete : r.fields = names ↔ root ∉ names
  suggestions : ∀ f close, (f, close) ∈ r.suggestions ↔
    f ∈ names ∧ close ≠ [] ∧ close = Rejection.suggestionsFor w.filterFields.eraseDups f
  suggestions_nodup : (r.suggestions.map (·.1)).Nodup
  suggestions_admitted : ∀ s ∈ r.suggestions, ∀ x ∈ s.2, x ∈ w.filterFields
  json : r.json = jsonObject (r.members.map fun m => (m.1, m.2.json))
  members_details : r.members.lookup "details" = some (.names r.details)
  members_suggestions : r.members.lookup "suggestions" =
    if r.suggestions = [] then none else some (.names r.suggestions)

theorem Rejection.report_tellsOf (w : Allowlist) {names : List String} (hne : names ≠ [])
    (h : names.Nodup) :
    (Rejection.unknownFields names w.filterFields.eraseDups).report.TellsOf w names where
  details := details_unknownFields h
  message := message_unknownFields hne h
  fields := by rw [Report.fields, detailed_unknownFields h]
  complete := Report.fields_eq_iff (detailed_unknownFields h)
  suggestions _ _ := mem_suggestions_unknownFields
  suggestions_nodup := suggestions_unknownFields_nodup _ _
  suggestions_admitted s hs x hx := by
    obtain ⟨-, -, hclose⟩ := mem_suggestions_unknownFields.mp hs
    rw [hclose] at hx
    exact List.mem_eraseDups.mp (mem_of_mem_suggestionsFor hx)
  json := Report.json_eq_members _
  members_details := Report.lookup_details _
  members_suggestions := Report.lookup_suggestions _

namespace Allowlist
open Sample

variable {w : Allowlist} {filters : List Filter}

theorem check_eq_ok_iff_admits :
    w.check filters = .ok () ↔ ∀ f ∈ filters, w.Admits f.field f.operator := by
  constructor
  · intro h f hf
    exact admits_of_check h hf
  · intro h
    refine check_eq_ok.mpr fun f hf => ⟨List.contains_iff_mem.mpr (h f hf).1, ?_⟩
    rw [admits]
    split
    case h_1 operators hr => exact List.contains_iff_mem.mpr ((h f hf).2 operators hr)
    case h_2 => rfl

theorem isFirstSeen_rejected (w : Allowlist) (filters : List Filter) :
    IsFirstSeen (filters.map (·.field)) (· ∉ w.filterFields) (w.rejected filters).eraseDups where
  mem f := by
    rw [List.mem_eraseDups, rejected, List.mem_filter, Bool.not_eq_true', allowsFilter,
      List.contains_eq_mem, decide_eq_false_iff_not]
  ordered := pairwise_idxOf_eraseDups _ _

theorem check_of_rejected (h : w.rejected filters ≠ []) :
    w.check filters =
      .error (.unknownFields (w.rejected filters).eraseDups w.filterFields.eraseDups) := by
  rw [check]
  split
  case h_1 hnil => exact absurd hnil h
  case h_2 => rfl

/-- Filters pass if all of them are admitted. With fields that may not be filtered on they do not,
whatever else is wrong with them, and the report tells of all such fields. -/
structure Reports (w : Allowlist) (filters : List Filter) : Prop where
  accepted : w.check filters = .ok () ↔ ∀ f ∈ filters, w.Admits f.field f.operator
  refused : (∃ f ∈ filters, f.field ∉ w.filterFields) →
    ∃ names, IsFirstSeen (filters.map (·.field)) (· ∉ w.filterFields) names ∧
      w.check filters = .error (.unknownFields names w.filterFields.eraseDups) ∧
      (Rejection.unknownFields names w.filterFields.eraseDups).report.TellsOf w names

theorem check_reports (w : Allowlist) (filters : List Filter) : w.Reports filters where
  accepted := check_eq_ok_iff_admits
  refused h := by
    obtain ⟨f, hf, hfield⟩ := h
    have hseen := isFirstSeen_rejected w filters
    have hmem := (hseen.mem f.field).mpr ⟨List.mem_map_of_mem hf, hfield⟩
    have hne := List.ne_nil_of_mem hmem
    have hrejected : w.rejected filters ≠ [] := fun hnil => hne (by rw [hnil]; rfl)
    exact ⟨_, hseen, check_of_rejected hrejected,
      Rejection.report_tellsOf w hne (Parameter.nodup_eraseDups _)⟩

def misspeltFilters : List Filter :=
  [⟨"emial", .eq, .single "x"⟩, ⟨"role", .eq, .single "admin"⟩, ⟨"password", .eq, .single "y"⟩,
    ⟨"emial", .like, .single "z"⟩]

theorem check_reports_misspelt :
    (∃ f ∈ misspeltFilters, f.field ∉ usersAllowlist.filterFields) ∧
      ∃ r, usersAllowlist.check misspeltFilters = .error r ∧
        r.report.TellsOf usersAllowlist ["emial", "password"] ∧
        r.report.fields = ["emial", "password"] := by
  have hrefused : ∃ f ∈ misspeltFilters, f.field ∉ usersAllowlist.filterFields := by decide
  have hcheck : usersAllowlist.check misspeltFilters =
      .error (.unknownFields ["emial", "password"] usersAllowlist.filterFields) := by
    decide +kernel
  obtain ⟨names, -, hnames, htells⟩ :=
    (check_reports usersAllowlist misspeltFilters).refused hrefused
  obtain rfl : ["emial", "password"] = names := by
    rw [hcheck] at hnames
    cases hnames
    rfl
  exact ⟨hrefused, _, hnames, htells, htells.complete.mpr (by decide)⟩

def rootString : String := "filter[__root__][eq]=x&filter[password][eq]=y"

def rootFilters : List Filter :=
  [⟨"__root__", .eq, .single "x"⟩, ⟨"password", .eq, .single "y"⟩]

/-- A field called like the request as a whole is refused and has its message, but it is not among
the fields at fault. -/
theorem fields_of_rootFilters :
    usersPolicy.read (.ofQueryString rootString) = .ok ⟨⟨1, 20⟩, {}, rootFilters⟩ ∧
      IsFirstSeen (rootFilters.map (·.field)) (· ∉ usersAllowlist.filterFields)
        ["__root__", "password"] ∧
      ∃ r, usersAllowlist.check rootFilters = .error r ∧
        r.report.details.map (·.1) = ["__root__", "password"] ∧
        r.report.fields = ["password"] ∧ r.report.fields ≠ ["__root__", "password"] := by
  have hcheck : usersAllowlist.check rootFilters =
      .error (.unknownFields ["__root__", "password"] usersAllowlist.filterFields) := by
    decide +kernel
  refine ⟨by decide +kernel, ?_, _, hcheck, by decide +kernel, by decide +kernel, by decide +kernel⟩
  exact isFirstSeen_rejected usersAllowlist rootFilters

end Allowlist
end Listing
