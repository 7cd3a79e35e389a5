import Reckoner.Proofs.Tree

set_option autoImplicit false

namespace Reckoner

/-- A print in a tree: the way to it from the root, as the positions of the parts to go to, and the
expression that it prints. -/
structure Occurrence where
  address : List Nat
  expr : Node

def Form.printAt (address : List Nat) : Form → List Occurrence
  | .print expr => [⟨address, expr⟩]
  | _ => []

namespace Node

/-- The prints of a tree that stands at an address, from left to right and the inner ones first. -/
def printsAt (tree : Node) : List Nat → List Occurrence :=
  tree.fold fun whole parts address =>
    (parts.zipIdx.flatMap fun entry => entry.1 (address ++ [entry.2])) ++
      whole.form.printAt address

def prints (tree : Node) : List Occurrence :=
  tree.printsAt []

theorem printsAt_mk (place : Location) (form : Form) (address : List Nat) :
    (mk place form).printsAt address =
      (form.children.zipIdx.flatMap fun entry => entry.1.printsAt (address ++ [entry.2])) ++
        form.printAt address := by
  simp only [printsAt, fold_mk, List.zipIdx_map, List.flatMap_map]
  rfl

def at? (tree : Node) : List Nat → Option Node
  | [] => some tree
  | i :: address => tree.form.children[i]?.bind (·.at? address)

theorem mem_printAt_iff {form : Form} {address : List Nat} {print : Occurrence} :
    print ∈ form.printAt address ↔ print.address = address ∧ form = .print print.expr := by
  obtain ⟨there, expr⟩ := print
  cases form <;> simp [Form.printAt, eq_comm]

/-- The prints that are listed are those that stand in the tree. -/
theorem mem_printsAt_iff {tree : Node} {address : List Nat} {print : Occurrence} :
    print ∈ tree.printsAt address ↔ ∃ inner place, print.address = address ++ inner ∧
      tree.at? inner = some (.mk place (.print print.expr)) := by
  induction tree using Node.induct generalizing address with
  | step place form ih =>
      rw [printsAt_mk, List.mem_append, List.mem_flatMap, mem_printAt_iff]
      constructor
      · rintro (⟨⟨child, i⟩, part, inside⟩ | ⟨here, rfl⟩)
        · obtain ⟨inner, there, leads, found⟩ :=
            (ih child (List.fst_mem_of_mem_zipIdx part)).mp inside
          refine ⟨i :: inner, there, by simp [leads], ?_⟩
          exact Option.bind_eq_some_iff.mpr ⟨child, List.mem_zipIdx_iff_getElem?.mp part, found⟩
        · exact ⟨[], place, by simp [here], rfl⟩
      · rintro ⟨inner, there, leads, found⟩
        cases inner with
        | nil =>
            cases found
            exact Or.inr ⟨by simpa using leads, rfl⟩
        | cons i inner =>
            obtain ⟨child, part, found⟩ := Option.bind_eq_some_iff.mp found
            refine Or.inl ⟨(child, i), List.mem_zipIdx_iff_getElem?.mpr part, ?_⟩
            apply (ih child (List.mem_of_getElem? part)).mpr
            exact ⟨inner, there, by simp [leads], found⟩

/-- No print is listed twice. -/
theorem printsAt_distinct (tree : Node) (address : List Nat) :
    (tree.printsAt address).Pairwise fun print other => print.address ≠ other.address := by
  induction tree using Node.induct generalizing address with
  | step place form ih =>
      rw [printsAt_mk, List.pairwise_append, List.pairwise_flatMap]
      refine ⟨⟨fun entry part => ?_, ?_⟩, ?_, ?_⟩
      · exact ih entry.1 (List.fst_mem_of_mem_zipIdx part) _
      · -- The ways to prints in different parts differ after the address.
        have positions : form.children.zipIdx.Pairwise fun entry other => entry.2 ≠ other.2 := by
          rw [← List.pairwise_map, List.zipIdx_map_snd]
          exact List.nodup_range'
        apply positions.imp
        intro entry other distinct print inside another elsewhere same
        obtain ⟨_, _, leads, _⟩ := mem_printsAt_iff.mp inside
        obtain ⟨_, _, leads', _⟩ := mem_printsAt_iff.mp elsewhere
        rw [leads, leads'] at same
        simp [distinct] at same
      · cases form <;> simp [Form.printAt]
      · intro print inside own here
        obtain ⟨_, _, inside⟩ := List.mem_flatMap.mp inside
        obtain ⟨_, _, leads, _⟩ := mem_printsAt_iff.mp inside
        rw [leads, (mem_printAt_iff.mp here).1]
        simp

/-- A part that is left open, of which only the position is known. -/
def slot (position : Nat) : Node :=
  .mk ⟨some position, none⟩ .blank

def slot? (node : Node) : Option Nat :=
  match node.form with
  | .blank => node.location.line.map Int.toNat
  | _ => none

def slots (first : Nat) (nodes : List Node) : List Node :=
  (nodes.zipIdx first).map fun entry => slot entry.2

end Node

/-- The form with its parts left open. -/
def Form.opened : Form → Form
  | .program statements => .program (Node.slots 0 statements)
  | .statement body => .statement (body.map fun _ => Node.slot 0)
  | .define name _ => .define name (Node.slot 0)
  | .assign name _ => .assign name (Node.slot 0)
  | .equation _ _ => .equation (Node.slot 0) (Node.slot 1)
  | .equationStatement _ => .equationStatement (Node.slot 0)
  | .print _ => .print (Node.slot 0)
  | .expressionStatement _ => .expressionStatement (Node.slot 0)
  | .or _ _ => .or (Node.slot 0) (Node.slot 1)
  | .and _ _ => .and (Node.slot 0) (Node.slot 1)
  | .not _ => .not (Node.slot 0)
  | .comparison _ rest =>
    .comparison (Node.slot 0) ((rest.zipIdx 1).map fun entry => (entry.1.1, Node.slot entry.2))
  | .arith _ operator _ => .arith (Node.slot 0) operator (Node.slot 1)
  | .term _ operator _ => .term (Node.slot 0) operator (Node.slot 1)
  | .power _ exponent => .power (Node.slot 0) (exponent.map fun _ => Node.slot 1)
  | .unary operator _ => .unary operator (Node.slot 0)
  | .paren _ => .paren (Node.slot 0)
  | .factorial _ => .factorial (Node.slot 0)
  | .juxtaposition numeral token names group parenthesized =>
    .juxtaposition numeral token names (group.map fun _ => Node.slot 0) parenthesized
  | .call function arguments => .call function (Node.slots 0 arguments)
  | .argumentList items => .argumentList (Node.slots 0 items)
  | .expressionList items => .expressionList (Node.slots 0 items)
  | .vector items => .vector (items.map fun _ => Node.slot 0)
  | .row _ => .row (Node.slot 0)
  | .matrix rows => .matrix (Node.slots 0 rows)
  | form => form

end Reckoner
