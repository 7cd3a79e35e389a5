import Reckoner.Tree.Children

set_option autoImplicit false

namespace Reckoner

private theorem sizeOf_lt_of_mem_toList {node : Node} {part : Option Node}
    (member : node ∈ part.toList) : sizeOf node < sizeOf part := by
  cases part with
  | none => cases member
  | some inner =>
      rw [Option.toList_some, List.mem_singleton] at member
      subst member
      simp

private theorem sizeOf_lt_of_mem_links {node : Node} {links : List (String × Node)}
    (member : node ∈ links.map Prod.snd) : sizeOf node < sizeOf links := by
  obtain ⟨⟨operator, operand⟩, inside, rfl⟩ := List.mem_map.mp member
  have link := List.sizeOf_lt_of_mem inside
  simp only [Prod.mk.sizeOf_spec] at link
  dsimp only
  omega

theorem Form.sizeOf_child_lt {form : Form} {child : Node} (member : child ∈ form.children) :
    sizeOf child < sizeOf form := by
  cases form <;> simp only [Form.children] at member <;>
    grind [→ sizeOf_lt_of_mem_toList, → sizeOf_lt_of_mem_links, → List.sizeOf_lt_of_mem]

/-- The levels below a form that are no nodes: the constant of a juxtaposition is visited, too. -/
def Form.tokenHeight : Form → Nat
  | .juxtaposition _ (some _) _ _ _ => 1
  | _ => 0

namespace Node

/-- Computes bottom up, from a node and from what its parts have come to. -/
def fold {β : Type} (combine : Node → List β → β) (node : Node) : β :=
  combine node (node.form.children.attach.map fun child => child.1.fold combine)
termination_by sizeOf node
decreasing_by
  have smaller := Form.sizeOf_child_lt child.2
  cases node
  simp only [Node.form, mk.sizeOf_spec] at smaller ⊢
  omega

theorem fold_mk {β : Type} (combine : Node → List β → β) (place : Location) (form : Form) :
    (mk place form).fold combine = combine (mk place form) (form.children.map (fold combine)) := by
  rw [fold]
  simp [Node.form]

/-- The node itself and all that occur in it, a node before its parts. -/
def nodes (node : Node) : List Node :=
  node.fold fun whole parts => whole :: parts.flatten

theorem nodes_mk (place : Location) (form : Form) :
    (mk place form).nodes = mk place form :: form.children.flatMap nodes := by
  rw [nodes, fold_mk, List.flatMap_def]
  rfl

theorem self_mem_nodes (node : Node) : node ∈ node.nodes := by
  cases node
  simp [nodes_mk]

theorem mem_nodes_of_child {place : Location} {form : Form} {child node : Node}
    (part : child ∈ form.children) (inside : node ∈ child.nodes) :
    node ∈ (mk place form).nodes := by
  rw [nodes_mk]
  exact List.mem_cons_of_mem _ (List.mem_flatMap_of_mem part inside)

/-- The longest chain of nested visits that the structure of a tree allows. -/
def height (node : Node) : Nat :=
  node.fold fun whole heights => 1 + heights.foldr max whole.form.tokenHeight

theorem height_mk (place : Location) (form : Form) :
    (mk place form).height = 1 + (form.children.map height).foldr max form.tokenHeight := by
  rw [height, fold_mk]
  rfl

private theorem le_foldr_max (base : Nat) (heights : List Nat) :
    base ≤ heights.foldr max base ∧ ∀ h ∈ heights, h ≤ heights.foldr max base := by
  induction heights with
  | nil => simp
  | cons first rest ih =>
      constructor
      · exact Nat.le_trans ih.1 (Nat.le_max_right first _)
      · intro h member
        rcases List.mem_cons.mp member with rfl | later
        · exact Nat.le_max_left h _
        · exact Nat.le_trans (ih.2 h later) (Nat.le_max_right first _)

theorem height_child_lt (place : Location) {form : Form} {child : Node}
    (part : child ∈ form.children) : child.height < (mk place form).height := by
  have bound := (le_foldr_max form.tokenHeight (form.children.map height)).2 child.height
    (List.mem_map_of_mem part)
  rw [height_mk]
  omega

theorem tokenHeight_lt_height (place : Location) (form : Form) :
    form.tokenHeight < (mk place form).height := by
  have bound := (le_foldr_max form.tokenHeight (form.children.map height)).1
  rw [height_mk]
  omega

theorem height_pos (node : Node) : 0 < node.height := by
  cases node with
  | mk place form => exact Nat.lt_of_le_of_lt (Nat.zero_le _) (tokenHeight_lt_height place form)

end Node

end Reckoner
