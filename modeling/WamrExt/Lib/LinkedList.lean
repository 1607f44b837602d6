import Mathlib.Logic.Function.Basic
import Mathlib.Data.List.Basic
import Mathlib.Data.Nat.Notation

/-!
# Singly linked lists

A node has an address, and the address of the next node. The null address 0 ends a list. So the
links of all nodes are a partial function on addresses, and a list is what they lead through from
its first node (`Linked`).

Only the links of the nodes of a list matter (`Linked.congr`). A list grows at its end by one link
(`Linked.concat`).
-/

set_option autoImplicit false

namespace LinkedList

/-- The links lead from an address through some nodes, one after another, and end. -/
def Linked (next : ℕ → Option ℕ) : ℕ → List ℕ → Prop
  | p, [] => p = 0
  | p, node :: rest => p = node ∧ node ≠ 0 ∧ ∃ q, next node = some q ∧ Linked next q rest

variable {next next' : ℕ → Option ℕ} {p : ℕ} {nodes : List ℕ}

theorem Linked.cons {node q : ℕ} (notNull : node ≠ 0) (link : next node = some q)
    (rest : Linked next q nodes) : Linked next node (node :: nodes) :=
  ⟨rfl, notNull, q, link, rest⟩

/-- Only the links of the nodes matter. -/
theorem Linked.congr (linked : Linked next p nodes)
    (same : ∀ node ∈ nodes, next' node = next node) :
    Linked next' p nodes := by
  induction nodes generalizing p with
  | nil => exact linked
  | cons node rest ih =>
      obtain ⟨rfl, notNull, q, link, later⟩ := linked
      obtain ⟨here, elsewhere⟩ := List.forall_mem_cons.mp same
      exact Linked.cons notNull (here.trans link) (ih later elsewhere)

/-- **A list grows at its end.** The last node gets a link to a new one, which ends the list. -/
theorem Linked.concat {last new : ℕ} (linked : Linked next p (nodes ++ [last]))
    (notNull : new ≠ 0) (linkLast : next' last = some new) (linkNew : next' new = some 0)
    (same : ∀ node ∈ nodes, next' node = next node) :
    Linked next' p (nodes ++ [last] ++ [new]) := by
  induction nodes generalizing p with
  | nil =>
      obtain ⟨rfl, lastNotNull, _⟩ := linked
      exact Linked.cons lastNotNull linkLast (Linked.cons notNull linkNew rfl)
  | cons node rest ih =>
      obtain ⟨rfl, nodeNotNull, q, link, later⟩ := linked
      obtain ⟨here, elsewhere⟩ := List.forall_mem_cons.mp same
      exact Linked.cons nodeNotNull (here.trans link) (ih later elsewhere)

end LinkedList
