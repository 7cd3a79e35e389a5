import Reckoner.Proofs.History
import Reckoner.Registry

set_option autoImplicit false

namespace Reckoner

/-- What a name is bound to stands beside it in the list. -/
theorem Bindings.mem_of_get?_ofList {α : Type} {entries : List (String × α)} {name : String} {a : α}
    (found : (ofList entries).get? name = some a) : (name, a) ∈ entries := by
  induction entries using List.reverseRecOn with
  | nil => cases found
  | append_singleton entries entry ih =>
      rw [ofList_concat, get?_insert] at found
      split at found
      · rename_i same
        cases found
        rw [same]
        exact List.mem_append_right _ List.mem_cons_self
      · exact List.mem_append_left _ (ih found)

namespace Builtin

theorem name_mem_names (f : Builtin) : f.name ∈ names :=
  List.mem_map_of_mem (mem_all f)

theorem exists_name_eq {name : String} (known : name ∈ names) : ∃ f : Builtin, f.name = name := by
  obtain ⟨f, -, same⟩ := List.mem_map.mp known
  exact ⟨f, same⟩

theorem ofName?_eq_none {name : String} (unknown : name ∉ names) : ofName? name = none := by
  cases found : ofName? name with
  | none => rfl
  | some f =>
      rw [ofName?_eq_some.mp found] at unknown
      exact absurd f.name_mem_names unknown

/-- The functions stand in the order of their names. -/
theorem names_ascending : names.Pairwise (· < ·) := by
  decide

theorem quoted_name (f : Builtin) : Text.quoted f.name = "'" ++ f.name ++ "'" := by
  cases f <;> decide +kernel

end Builtin

namespace Registry

variable {table : List String}

/-- The names are those of the functions, each at least once. -/
def Complete (table : List String) : Prop :=
  ∀ name, name ∈ table ↔ name ∈ Builtin.names

theorem Complete.subset (complete : Complete table) : table ⊆ Builtin.names :=
  fun name inside => (complete name).mp inside

def RefusedWith (table : List String) (report : String) : Prop :=
  ∃ refusal, ofTable table = .error refusal ∧ refusal.message = report

def missing (table : List String) : List Builtin :=
  Builtin.all.filter fun f => !table.contains f.name

theorem mem_missing_iff {f : Builtin} : f ∈ missing table ↔ f.name ∉ table := by
  simp [missing, Builtin.mem_all]

theorem mem_missing_names_iff {name : String} :
    name ∈ (missing table).map Builtin.name ↔ name ∈ Builtin.names ∧ name ∉ table := by
  constructor
  · intro left
    obtain ⟨f, absent, rfl⟩ := List.mem_map.mp left
    exact ⟨f.name_mem_names, mem_missing_iff.mp absent⟩
  · rintro ⟨known, absent⟩
    obtain ⟨f, rfl⟩ := Builtin.exists_name_eq known
    exact List.mem_map_of_mem (mem_missing_iff.mpr absent)

theorem missing_names_ascending : ((missing table).map Builtin.name).Pairwise (· < ·) :=
  Builtin.names_ascending.sublist (List.filter_sublist.map Builtin.name)

theorem complete_iff (known : table ⊆ Builtin.names) : Complete table ↔ missing table = [] := by
  rw [List.eq_nil_iff_forall_not_mem]
  simp only [mem_missing_iff, not_not]
  constructor
  · intro complete f
    exact (complete f.name).mpr f.name_mem_names
  · intro listed name
    refine ⟨fun inside => known inside, fun implemented => ?_⟩
    obtain ⟨f, rfl⟩ := Builtin.exists_name_eq implemented
    exact listed f

theorem resolve_cons_name (f : Builtin) (rest : List String) :
    resolve (f.name :: rest) = (resolve rest).map fun entries => (f.name, f) :: entries := by
  rw [resolve, List.mapM_cons, Builtin.ofName?_name]
  change (resolve rest >>= fun entries => pure ((f.name, f) :: entries)) = _
  cases resolve rest <;> rfl

theorem resolve_cons_unknown {name : String} (unknown : name ∉ Builtin.names)
    (rest : List String) : resolve (name :: rest) = .error (.notImplemented name) := by
  simp only [resolve, List.mapM_cons, Builtin.ofName?_eq_none unknown]
  rfl

/-- Names of functions are all found. -/
theorem exists_resolve_eq (known : table ⊆ Builtin.names) :
    ∃ entries, resolve table = .ok entries ∧ entries.map Prod.fst = table ∧
      ∀ entry ∈ entries, entry.1 = entry.2.name := by
  induction table with
  | nil => exact ⟨[], rfl, rfl, by simp⟩
  | cons name rest ih =>
      obtain ⟨first, later⟩ := List.cons_subset.mp known
      obtain ⟨f, rfl⟩ := Builtin.exists_name_eq first
      obtain ⟨entries, resolved, names, own⟩ := ih later
      refine ⟨(f.name, f) :: entries, ?_, ?_, ?_⟩
      · rw [resolve_cons_name, resolved]
        rfl
      · rw [List.map_cons, names]
      · exact List.forall_mem_cons.mpr ⟨rfl, own⟩

/-- The first name that belongs to no function ends the search. -/
theorem resolve_of_unknown {before : List String} (known : before ⊆ Builtin.names) {name : String}
    (unknown : name ∉ Builtin.names) (after : List String) :
    resolve (before ++ name :: after) = .error (.notImplemented name) := by
  induction before with
  | nil => exact resolve_cons_unknown unknown after
  | cons other rest ih =>
      obtain ⟨first, later⟩ := List.cons_subset.mp known
      obtain ⟨f, rfl⟩ := Builtin.exists_name_eq first
      rw [List.cons_append, resolve_cons_name, ih later]
      rfl

theorem ofTable_of_unknown {before : List String} (known : before ⊆ Builtin.names) {name : String}
    (unknown : name ∉ Builtin.names) (after : List String) :
    ofTable (before ++ name :: after) = .error (.notImplemented name) := by
  rw [ofTable, resolve_of_unknown known unknown]
  rfl

/-- A table with such a name has a first one. -/
theorem exists_first_unknown (foreign : ¬ table ⊆ Builtin.names) :
    ∃ before name after, table = before ++ name :: after ∧ before ⊆ Builtin.names ∧
      name ∉ Builtin.names := by
  induction table with
  | nil => exact absurd (List.nil_subset _) foreign
  | cons name rest ih =>
      by_cases known : name ∈ Builtin.names
      · have later : ¬ rest ⊆ Builtin.names :=
          fun all => foreign (List.cons_subset.mpr ⟨known, all⟩)
        obtain ⟨before, other, after, rfl, earlier, unknown⟩ := ih later
        exact ⟨name :: before, other, after, rfl, List.cons_subset.mpr ⟨known, earlier⟩, unknown⟩
      · exact ⟨[], name, rest, rfl, List.nil_subset _, known⟩

/-- What a registry of the table holds. -/
structure Holds (table : List String) (r : Registry) : Prop where
  names_eq : r.names = table.eraseDups
  lookup_listed : ∀ name ∈ table, ∃ f : Builtin, f.name = name ∧ r.lookup name = some f
  lookup_other : ∀ name, name ∉ table → r.lookup name = none

theorem holds_ofList {entries : List (String × Builtin)} (names : entries.map Prod.fst = table)
    (own : ∀ entry ∈ entries, entry.1 = entry.2.name) : Holds table ⟨.ofList entries⟩ := by
  have order : (Bindings.ofList entries).names = table.eraseDups := by
    rw [(Bindings.names_ofList entries).1, names]
  have bound (name : String) : (Bindings.ofList entries).contains name = true ↔ name ∈ table := by
    rw [Bindings.contains_iff_mem_names, order, List.mem_eraseDups]
  refine ⟨order, fun name listed => ?_, fun name absent => ?_⟩
  · obtain ⟨f, found⟩ := Option.isSome_iff_exists.mp ((bound name).mpr listed)
    exact ⟨f, (own _ (Bindings.mem_of_get?_ofList found)).symm, found⟩
  · have unbound := mt (bound name).mp absent
    exact Option.not_isSome_iff_eq_none.mp unbound

theorem ofTable_of_known (known : table ⊆ Builtin.names) :
    ∃ r, Holds table r ∧ ofTable table =
      if missing table = [] then .ok r else .error (.notListed (missing table)) := by
  obtain ⟨entries, resolved, names, own⟩ := exists_resolve_eq known
  refine ⟨⟨.ofList entries⟩, holds_ofList names own, ?_⟩
  rw [ofTable, resolved]
  change (if (missing table).isEmpty then _ else _) = _
  simp only [List.isEmpty_iff]
  rfl

theorem ofTable_ok_iff : (∃ r, ofTable table = .ok r) ↔ Complete table := by
  by_cases known : table ⊆ Builtin.names
  · obtain ⟨r, -, result⟩ := ofTable_of_known known
    rw [complete_iff known, result]
    by_cases all : missing table = []
    · rw [if_pos all]
      exact iff_of_true ⟨r, rfl⟩ all
    · rw [if_neg all]
      refine iff_of_false ?_ all
      rintro ⟨r', accepted⟩
      cases accepted
  · refine iff_of_false ?_ fun complete => known complete.subset
    obtain ⟨before, name, after, rfl, earlier, unknown⟩ := exists_first_unknown known
    rintro ⟨r, accepted⟩
    cases (ofTable_of_unknown earlier unknown after).symm.trans accepted

theorem holds_of_ofTable {r : Registry} (accepted : ofTable table = .ok r) : Holds table r := by
  have complete := ofTable_ok_iff.mp ⟨r, accepted⟩
  obtain ⟨r', holds, result⟩ := ofTable_of_known complete.subset
  rw [if_pos ((complete_iff complete.subset).mp complete)] at result
  cases result.symm.trans accepted
  exact holds

/-- The registry of any table that is accepted knows the functions that a call knows. -/
theorem lookup_eq_ofName? {r : Registry} (accepted : ofTable table = .ok r) (name : String) :
    r.lookup name = Builtin.ofName? name := by
  have holds := holds_of_ofTable accepted
  have complete := ofTable_ok_iff.mp ⟨r, accepted⟩
  by_cases known : name ∈ Builtin.names
  · obtain ⟨f, rfl, found⟩ := holds.lookup_listed name ((complete name).mpr known)
    rw [found, Builtin.ofName?_name]
  · rw [holds.lookup_other name (mt (complete name).mp known), Builtin.ofName?_eq_none known]

/-- The table of the language is accepted, with its names in order. -/
theorem exists_ofTable_standardTable :
    ∃ r, ofTable standardTable = .ok r ∧ r.names = standardTable ∧
      ∀ name, r.lookup name = Builtin.ofName? name := by
  have complete : Complete standardTable := fun _ => Iff.rfl
  obtain ⟨r, accepted⟩ := ofTable_ok_iff.mpr complete
  refine ⟨r, accepted, ?_, lookup_eq_ofName? accepted⟩
  rw [(holds_of_ofTable accepted).names_eq]
  decide

/-- The names of functions are quoted as they are. -/
theorem message_notListed (functions : List Builtin) :
    (TableRefusal.notListed functions).message = "Builtin functions " ++
      ("[" ++ ", ".intercalate ((functions.map Builtin.name).map fun name => "'" ++ name ++ "'") ++
        "]") ++ " implemented but missing from BUILTIN_TABLE" := by
  have quotes : (functions.map Builtin.name).map Text.quoted =
      (functions.map Builtin.name).map fun name => "'" ++ name ++ "'" := by
    simp only [List.map_map]
    exact List.map_congr_left fun f _ => f.quoted_name
  rw [← quotes]
  rfl

theorem refusedWith_missing (known : table ⊆ Builtin.names) (incomplete : ¬ Complete table) :
    RefusedWith table (TableRefusal.notListed (missing table)).message := by
  obtain ⟨r, -, result⟩ := ofTable_of_known known
  rw [complete_iff known] at incomplete
  rw [if_neg incomplete] at result
  exact ⟨_, result, rfl⟩

/-- A table makes a registry exactly if it names every function and nothing else. The registry then
lists the names as they first come up, and knows the function of each and of no other name. Of a
table that is refused the first name without a function is reported, and if there is none, the
functions that it leaves out, in the order of their names. -/
theorem ofTable_accepts_complete (table : List String) :
    ((∃ r, ofTable table = .ok r) ↔ Complete table) ∧
    (∀ r, ofTable table = .ok r → Holds table r) ∧
    (∀ before name after, table = before ++ name :: after → before ⊆ Builtin.names →
      name ∉ Builtin.names →
      RefusedWith table
        ("Builtin function '" ++ name ++ "' in BUILTIN_TABLE but not implemented")) ∧
    (table ⊆ Builtin.names → ¬ Complete table →
      ∃ omitted : List String, omitted.Pairwise (· < ·) ∧
        (∀ name, name ∈ omitted ↔ name ∈ Builtin.names ∧ name ∉ table) ∧
        RefusedWith table ("Builtin functions " ++
          ("[" ++ ", ".intercalate (omitted.map fun name => "'" ++ name ++ "'") ++ "]") ++
          " implemented but missing from BUILTIN_TABLE")) := by
  refine ⟨ofTable_ok_iff, fun r => holds_of_ofTable, ?_, fun known incomplete => ?_⟩
  · rintro before name after rfl earlier unknown
    exact ⟨_, ofTable_of_unknown earlier unknown after, rfl⟩
  · refine ⟨(missing table).map Builtin.name, missing_names_ascending,
      fun name => mem_missing_names_iff, ?_⟩
    rw [← message_notListed]
    exact refusedWith_missing known incomplete

/-- A name that comes up twice, a name without a function before another, and a table that leaves
out all functions but two. -/
theorem ofTable_accepts_complete_repeated :
    (∃ r, ofTable ("tan" :: Builtin.names) = .ok r ∧
      r.names = "tan" :: Builtin.names.dropLast ∧ r.lookup "Tan" = none) ∧
    RefusedWith ["abs", "gamma", "delta"]
      "Builtin function 'gamma' in BUILTIN_TABLE but not implemented" ∧
    ∃ omitted : List String, "ceil" ∈ omitted ∧ "tan" ∉ omitted ∧ omitted.Pairwise (· < ·) ∧
      RefusedWith ["tan", "abs"] ("Builtin functions " ++
        ("[" ++ ", ".intercalate (omitted.map fun name => "'" ++ name ++ "'") ++ "]") ++
        " implemented but missing from BUILTIN_TABLE") := by
  refine ⟨?_, ?_, ?_⟩
  · have complete : Complete ("tan" :: Builtin.names) := by
      intro name
      rw [List.mem_cons, or_iff_right_iff_imp]
      rintro rfl
      exact Builtin.tan.name_mem_names
    obtain ⟨accepted, holds, -⟩ := ofTable_accepts_complete ("tan" :: Builtin.names)
    obtain ⟨r, made⟩ := accepted.mpr complete
    refine ⟨r, made, ?_, (holds r made).lookup_other "Tan" (by decide)⟩
    rw [(holds r made).names_eq]
    decide
  · exact (ofTable_accepts_complete ["abs", "gamma", "delta"]).2.2.1 ["abs"] "gamma" ["delta"] rfl
      (by decide) (by decide)
  · have incomplete : ¬ Complete ["tan", "abs"] := by
      intro complete
      have listed := (complete "sum").mpr (by decide)
      exact absurd listed (by decide)
    obtain ⟨omitted, ascending, members, refused⟩ :=
      (ofTable_accepts_complete ["tan", "abs"]).2.2.2 (by decide) incomplete
    exact ⟨omitted, (members "ceil").mpr (by decide), fun inside =>
      absurd ((members "tan").mp inside) (by decide), ascending, refused⟩

end Registry

end Reckoner
