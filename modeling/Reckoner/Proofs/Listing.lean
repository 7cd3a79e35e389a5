import Reckoner.Proofs.History

set_option autoImplicit false

namespace Reckoner

namespace Text

/-- The close names are some of the names, each at most as often. -/
theorem closeNames_subperm (target : String) (names : List String) :
    (closeNames target names).Subperm names := by
  have sorted := List.mergeSort_perm ((names.map (Candidate.score target)).filter Candidate.isClose)
    Candidate.precedes
  have kept := (List.filter_sublist (l := names.map (Candidate.score target))
    (p := Candidate.isClose)).map Candidate.name
  have back : (names.map (Candidate.score target)).map Candidate.name = names := by
    rw [List.map_map]
    exact List.map_id names
  rw [back] at kept
  exact (sorted.map Candidate.name).subperm.trans kept.subperm

end Text

namespace Suggestion

/-- The wording of a question. -/
def wording (offered : List String) : String :=
  "Did you mean " ++ ", ".intercalate (offered.map fun name => "'" ++ name ++ "'") ++ "?"

theorem exists_closest_eq (target : String) (names : List String) :
    ∃ found : List String, closest target names offered = .ok found ∧ found.length ≤ offered ∧
      found.Subperm names := by
  unfold closest
  split
  · exact ⟨[], rfl, Nat.zero_le _, List.nil_subperm⟩
  · have positive : ¬ ((offered : Nat) : Int) ≤ 0 := by decide
    rw [if_neg positive]
    refine ⟨_, rfl, List.length_take_le _ _, ?_⟩
    exact (List.take_sublist _ _).subperm.trans (Text.closeNames_subperm target names)

/-- A question offers up to three of the names, each at most as often; it is not put if there is
nothing to offer. -/
theorem exists_question?_eq (target : String) (names : List String) :
    ∃ found : List String, found.length ≤ offered ∧ found.Subperm names ∧
      question? target names = if found.isEmpty then none else some (wording found) := by
  obtain ⟨found, success, short, some⟩ := exists_closest_eq target names
  refine ⟨found, short, some, ?_⟩
  rw [question?, success]
  cases found <;> rfl

end Suggestion

theorem nodup_of_subperm {names all : List String} (part : names.Subperm all) (nodup : all.Nodup) :
    names.Nodup :=
  List.nodup_iff_count_le_one.mpr fun name =>
    (part.count_le name).trans (List.nodup_iff_count_le_one.mp nodup name)

/-- The names that the report of a cause lists and the names that it offers, out of those that are
available. -/
structure Cause.Reports (cause : Cause) (available listed offered : List String) : Prop where
  context : cause.diagnostic.context = some ("Available names: " ++ (", ".intercalate listed ++
    if 10 < available.length then ", ..." else ""))
  suggestion : cause.diagnostic.suggestion =
    if offered.isEmpty then none else some (Suggestion.wording offered)
  listed_subperm : listed.Subperm available
  offered_subperm : offered.Subperm available
  listed_length : listed.length = min 10 available.length
  offered_length : offered.length ≤ Suggestion.offered

theorem Cause.exists_reports (name : String) (available : List String) :
    ∃ listed offered,
      (Cause.unknownIdentifier name available).Reports available listed offered := by
  obtain ⟨offered, short, some, question⟩ := Suggestion.exists_question?_eq name available
  have sorted := List.mergeSort_perm available fun a b => a ≤ b
  refine ⟨(available.mergeSort fun a b => a ≤ b).take 10, offered, ?_, question, ?_, some, ?_,
    short⟩
  · rw [← sorted.length_eq]
    rfl
  · exact (List.take_sublist _ _).subperm.trans sorted.subperm
  · rw [List.length_take, sorted.length_eq]

namespace Scope

variable {scope : Scope}

theorem mem_available_iff (scope : Scope) (name : String) :
    name ∈ scope.available ↔ ∃ v, scope.lookup name = .ok v := by
  rw [available, List.mem_append, ← Bindings.contains_iff_mem_names,
    ← Bindings.contains_iff_mem_names, lookup, resolve?, Bindings.contains, Bindings.contains]
  cases scope.bindings.get? name <;> cases constants.get? name <;> simp

theorem lookup_of_not_mem_available {name : String} (unknown : name ∉ scope.available) :
    scope.lookup name = .error (.ofCause (.unknownIdentifier name scope.available)) := by
  rw [mem_available_iff] at unknown
  rw [lookup] at unknown ⊢
  cases found : scope.resolve? name with
  | none => rfl
  | some value => exact absurd ⟨value, by rw [found]⟩ unknown

theorem hasConstant_iff (name : String) :
    hasConstant name = true ↔ name = "pi" ∨ name = "e" := by
  rw [hasConstant, Bindings.contains, constants_get?]
  split_ifs <;> simp_all

/-- A name is listed once for a variable and once for a constant. -/
theorem count_available (nodup : scope.bindings.names.Nodup) (name : String) :
    scope.available.count name =
      (if scope.hasVariable name then 1 else 0) + if hasConstant name then 1 else 0 := by
  have fixed : constants.names.Nodup := by decide
  rw [available, List.count_append, nodup.count, fixed.count]
  simp only [← Bindings.contains_iff_mem_names]
  rfl

theorem nodup_available_iff (nodup : scope.bindings.names.Nodup) :
    scope.available.Nodup ↔ scope.hasVariable "pi" = false ∧ scope.hasVariable "e" = false := by
  have fixed : constants.names = ["pi", "e"] := rfl
  have absent (name : String) : scope.hasVariable name = false ↔ name ∉ scope.bindings.names := by
    rw [← Bindings.contains_iff_mem_names, Bool.not_eq_true]
    rfl
  rw [available, fixed, absent, absent, List.nodup_append]
  constructor
  · rintro ⟨-, -, apart⟩
    exact ⟨fun found => apart "pi" found "pi" (by simp) rfl,
      fun found => apart "e" found "e" (by simp) rfl⟩
  · rintro ⟨noPi, noE⟩
    refine ⟨nodup, by decide, ?_⟩
    rintro name found constant either rfl
    rcases List.mem_pair.mp either with rfl | rfl
    · exact noPi found
    · exact noE found

end Scope

/-- Over every history of calls the listed names are the names that resolve. A name is listed once
for a variable and once for a constant, so no name is listed twice exactly if neither constant has
been bound; and then the report of an unknown name repeats none. -/
theorem available_lists_resolved (initial : List (String × Value)) (printed : List String)
    (writes : List Write) :
    let history := (History.start initial printed).calls writes
    let scope := history.machine.scope
    let bound := fun name =>
      name ∈ initial.map Prod.fst ∨ Call.defined history.log name = true
    (∀ name, name ∈ scope.available ↔ ∃ v, scope.lookup name = .ok v) ∧
    (∀ name, scope.available.count name =
      (if bound name then 1 else 0) + if name = "pi" ∨ name = "e" then 1 else 0) ∧
    (scope.available.Nodup ↔ ¬ bound "pi" ∧ ¬ bound "e") ∧
    ∀ name, name ∉ scope.available →
      ∃ cause listed offered, scope.lookup name = .error (.ofCause cause) ∧
        cause.kind = .unknownIdentifier ∧ cause.Reports scope.available listed offered ∧
        (scope.available.Nodup → listed.Nodup ∧ offered.Nodup) ∧
        (scope.available.length ≤ 10 → listed.Perm scope.available) := by
  intro history scope bound
  have agrees : history.Agrees initial := (History.agrees_start initial printed).calls writes
  refine ⟨scope.mem_available_iff, fun name => ?_, ?_, fun name unknown => ?_⟩
  · rw [Scope.count_available agrees.nodup]
    simp only [agrees.bound, Scope.hasConstant_iff]
    rfl
  · rw [Scope.nodup_available_iff agrees.nodup, ← Bool.not_eq_true, ← Bool.not_eq_true,
      agrees.bound, agrees.bound]
  · obtain ⟨listed, offered, reports⟩ := Cause.exists_reports name scope.available
    refine ⟨.unknownIdentifier name scope.available, listed, offered, ?_, rfl, reports, ?_, ?_⟩
    · exact Scope.lookup_of_not_mem_available unknown
    · intro nodup
      exact ⟨nodup_of_subperm reports.listed_subperm nodup,
        nodup_of_subperm reports.offered_subperm nodup⟩
    · intro few
      refine reports.listed_subperm.perm_of_length_le ?_
      rw [reports.listed_length, Nat.min_eq_right few]

/-- A variable that hides a constant is listed beside it, and the report repeats the name. -/
theorem shadowed_constant_listed_twice :
    let scope := (History.start [("pi", .number 3)] []).machine.scope
    (∃ v, scope.lookup "pi" = .ok v) ∧ scope.available.count "pi" = 2 ∧
      ∃ cause, scope.lookup "pie" = .error (.ofCause cause) ∧
        cause.diagnostic.context = some "Available names: e, pi, pi" ∧
        cause.diagnostic.suggestion = some "Did you mean 'pi', 'pi'?" := by
  have sorted : ["pi", "pi", "e"].mergeSort (fun a b => a ≤ b) = ["e", "pi", "pi"] := by
    simp [List.mergeSort]
  have close : Text.closeNames "pie" ["pi", "pi", "e"] = ["pi", "pi"] := by
    have scored : (["pi", "pi", "e"].map (Text.Candidate.score "pie")).filter
        Text.Candidate.isClose = [⟨"pi", 2, 5⟩, ⟨"pi", 2, 5⟩] := by
      rfl
    rw [Text.closeNames, scored]
    simp [List.mergeSort, Text.Candidate.precedes]
  refine ⟨⟨_, rfl⟩, by decide, .unknownIdentifier "pie" ["pi", "pi", "e"], rfl, ?_, ?_⟩
  · change some ("Available names: " ++ Cause.listedNames ["pi", "pi", "e"]) = _
    rw [Cause.listedNames, sorted]
    rfl
  · change Suggestion.question? "pie" ["pi", "pi", "e"] = _
    rw [Suggestion.question?, Suggestion.closest, close]
    rfl

end Reckoner
