/-
  ScreenInspector/Proofs/DocumentStructure.lean
  =============================================
  **How the numbers of a document follow its trees.**

  The entries of trees that stand side by side are numbered one after the other, so they have the
  labels of the trees in depth-first order (`map_label_entriesAll`), and each of them is held by
  the node around the trees or by an earlier one of them that it does not lie behind
  (`held_entriesAll`); none of them reaches behind the trees (`last_bounds_of_mem`), and one that
  begins inside another lies inside it (`nested_entriesAll`).  A numbered document has the document
  itself at number 0, and every other node is held by an earlier one and is among its children
  (`exists_parent`, `exists_mem_children`).
-/
import ScreenInspector.Expression.Axis
import ScreenInspector.Screen.Tree
import Mathlib.Data.List.Basic

namespace ScreenInspector.Markup

namespace Node

/-- Induction over lists of trees: from the children of an element and the trees beside it to the
list that begins with the element. -/
theorem list_induction {motive : List Node → Prop} (nil : motive [])
    (element : ∀ name attributes children rest, motive children → motive rest →
      motive (.element name attributes children :: rest))
    (text : ∀ content rest, motive rest → motive (.text content :: rest))
    (comment : ∀ rest, motive rest → motive (.comment :: rest))
    (instruction : ∀ rest, motive rest → motive (.instruction :: rest)) :
    ∀ nodes, motive nodes
  | [] => nil
  | .element name attributes children :: rest =>
    element name attributes children rest
      (list_induction nil element text comment instruction children)
      (list_induction nil element text comment instruction rest)
  | .text content :: rest =>
    text content rest (list_induction nil element text comment instruction rest)
  | .comment :: rest => comment rest (list_induction nil element text comment instruction rest)
  | .instruction :: rest =>
    instruction rest (list_induction nil element text comment instruction rest)

def labels : Node → List Label
  | .element name attributes children => .element name attributes :: children.flatMap labels
  | .text content => [.text content]
  | .comment => [.comment]
  | .instruction => [.instruction]

/-- A tree of a single node: it has one entry, which ends where it begins. -/
structure IsLeaf (node : Node) (label : Label) : Prop where
  size_eq : node.size = 1
  labels_eq : node.labels = [label]
  entries_eq : ∀ parent id, entries parent id node = [⟨label, some parent, id⟩]

/-- Induction over lists of trees that tells only elements from all others. -/
theorem leaf_induction {motive : List Node → Prop} (nil : motive [])
    (element : ∀ name attributes children rest, motive children → motive rest →
      motive (.element name attributes children :: rest))
    (leaf : ∀ node label rest, IsLeaf node label → motive rest → motive (node :: rest))
    (nodes : List Node) : motive nodes := by
  induction nodes using list_induction with
  | nil => exact nil
  | element name attributes children rest ihc ihr => exact element name attributes _ _ ihc ihr
  | text content rest ih =>
    exact leaf _ (.text content) _ ⟨rfl, by rw [labels], fun _ _ => rfl⟩ ih
  | comment rest ih => exact leaf _ .comment _ ⟨rfl, by rw [labels], fun _ _ => rfl⟩ ih
  | instruction rest ih => exact leaf _ .instruction _ ⟨rfl, by rw [labels], fun _ _ => rfl⟩ ih

theorem map_label_entriesAll (parent id : Nat) (nodes : List Node) :
    (entriesAll parent id nodes).map Entry.label = nodes.flatMap labels := by
  induction nodes using leaf_induction generalizing parent id with
  | nil => rfl
  | element name attributes children rest ihc ihr =>
    rw [entriesAll, entries, List.map_append, List.map_cons, ihc, ihr, List.flatMap_cons, labels]
  | leaf node label rest h ih =>
    rw [entriesAll, h.entries_eq, List.map_append, ih, List.flatMap_cons, h.labels_eq]
    rfl

theorem length_entriesAll (parent id : Nat) (nodes : List Node) :
    (entriesAll parent id nodes).length = sizeAll nodes := by
  induction nodes using leaf_induction generalizing parent id with
  | nil => rfl
  | element name attributes children rest ihc ihr =>
    simp only [entriesAll, entries, List.length_append, List.length_cons, ihc, ihr, sizeAll, size]
    omega
  | leaf node label rest h ih =>
    rw [entriesAll, h.entries_eq, List.length_append, ih, sizeAll, h.size_eq]
    rfl

/-! ### Numbered entries -/

theorem zipIdx_entriesAll_element (parent id : Nat) (name : String) (attributes : List Attribute)
    (children rest : List Node) :
    (entriesAll parent id (.element name attributes children :: rest)).zipIdx id =
      (⟨.element name attributes, some parent, id + sizeAll children⟩, id) ::
        ((entriesAll id (id + 1) children).zipIdx (id + 1) ++
          (entriesAll parent (id + (1 + sizeAll children)) rest).zipIdx
            (id + (1 + sizeAll children))) := by
  rw [entriesAll, entries, size, List.cons_append, List.zipIdx_cons, List.zipIdx_append,
    length_entriesAll, Nat.add_assoc]

theorem IsLeaf.zipIdx_entriesAll {node : Node} {label : Label} (h : IsLeaf node label)
    (parent id : Nat) (rest : List Node) :
    (entriesAll parent id (node :: rest)).zipIdx id =
      (⟨label, some parent, id⟩, id) :: (entriesAll parent (id + 1) rest).zipIdx (id + 1) := by
  rw [entriesAll, h.entries_eq, h.size_eq, List.cons_append, List.nil_append, List.zipIdx_cons]

/-- Entries are numbered from the first on, one number each. -/
theorem bounds_of_mem {parent id : Nat} {nodes : List Node} {x : Entry × Nat}
    (h : x ∈ (entriesAll parent id nodes).zipIdx id) : id ≤ x.2 ∧ x.2 < id + sizeAll nodes := by
  have hbounds := List.mem_zipIdx h
  rw [length_entriesAll] at hbounds
  exact ⟨hbounds.1, hbounds.2.1⟩

/-- An entry does not end before it begins, and the entries of trees do not reach behind them. -/
theorem last_bounds_of_mem {parent id : Nat} {nodes : List Node} {x : Entry × Nat}
    (h : x ∈ (entriesAll parent id nodes).zipIdx id) :
    x.2 ≤ x.1.last ∧ x.1.last < id + sizeAll nodes := by
  induction nodes using leaf_induction generalizing parent id with
  | nil => simp [entriesAll] at h
  | element name attributes children rest ihc ihr =>
    rw [zipIdx_entriesAll_element, List.mem_cons, List.mem_append] at h
    rw [sizeAll, size]
    rcases h with rfl | h | h
    · dsimp only
      omega
    · have hchildren := ihc h
      omega
    · have hrest := ihr h
      omega
  | leaf node label rest hleaf ih =>
    rw [hleaf.zipIdx_entriesAll, List.mem_cons] at h
    rw [sizeAll, hleaf.size_eq]
    rcases h with rfl | h
    · dsimp only
      omega
    · have hrest := ih h
      omega

/-- A numbered entry is held by a given node, or by an earlier entry of a list that reaches as far
as it. -/
def Held (parent : Nat) (all : List (Entry × Nat)) (x : Entry × Nat) : Prop :=
  x.1.parent = some parent ∨ ∃ y ∈ all, y.2 < x.2 ∧ x.1.parent = some y.2 ∧ x.2 ≤ y.1.last

theorem Held.mono {parent : Nat} {all more : List (Entry × Nat)} {x : Entry × Nat}
    (h : Held parent all x) (hmore : ∀ y ∈ all, y ∈ more) : Held parent more x := by
  rcases h with h | ⟨y, hy, hlt, hparent, hlast⟩
  · exact Or.inl h
  · exact Or.inr ⟨y, hmore y hy, hlt, hparent, hlast⟩

/-- **Every entry is held** by the node around the trees or by an earlier entry. -/
theorem held_entriesAll (parent id : Nat) (nodes : List Node) :
    ∀ x ∈ (entriesAll parent id nodes).zipIdx id,
      Held parent ((entriesAll parent id nodes).zipIdx id) x := by
  induction nodes using leaf_induction generalizing parent id with
  | nil => intro x hx; simp [entriesAll] at hx
  | element name attributes children rest ihc ihr =>
    rw [zipIdx_entriesAll_element]
    intro x hx
    rcases List.mem_cons.mp hx with rfl | hx
    · exact Or.inl rfl
    rcases List.mem_append.mp hx with hx | hx
    · rcases ihc id (id + 1) x hx with hparent | ⟨y, hy, hheld⟩
      · -- A child of the element: the element itself holds it.
        have hbounds := bounds_of_mem hx
        refine Or.inr ⟨_, List.mem_cons_self, ?_, hparent, ?_⟩ <;>
        · simp only
          omega
      · exact Or.inr ⟨y, List.mem_cons_of_mem _ (List.mem_append_left _ hy), hheld⟩
    · exact (ihr _ _ x hx).mono fun y hy => List.mem_cons_of_mem _ (List.mem_append_right _ hy)
  | leaf node label rest h ih =>
    rw [h.zipIdx_entriesAll]
    intro x hx
    rcases List.mem_cons.mp hx with rfl | hx
    · exact Or.inl rfl
    · exact (ih _ _ x hx).mono fun y hy => List.mem_cons_of_mem _ hy

/-- The number of the node that holds an entry: that around the trees, or one of theirs. -/
theorem parent_of_mem {parent id : Nat} {nodes : List Node} {x : Entry × Nat}
    (h : x ∈ (entriesAll parent id nodes).zipIdx id) :
    ∃ q, x.1.parent = some q ∧ (q = parent ∨ id ≤ q) := by
  rcases held_entriesAll parent id nodes x h with hparent | ⟨y, hy, -, hparent, -⟩
  · exact ⟨parent, hparent, Or.inl rfl⟩
  · exact ⟨y.2, hparent, Or.inr (bounds_of_mem hy).1⟩

/-- **Entries are nested**: one that begins inside another ends inside it, and is held by that or by
one inside that. -/
theorem nested_entriesAll (parent id : Nat) (nodes : List Node) :
    ∀ x ∈ (entriesAll parent id nodes).zipIdx id, ∀ y ∈ (entriesAll parent id nodes).zipIdx id,
      x.2 < y.2 → y.2 ≤ x.1.last →
      y.1.last ≤ x.1.last ∧ ∃ q, y.1.parent = some q ∧ x.2 ≤ q := by
  induction nodes using leaf_induction generalizing parent id with
  | nil => intro x hx; simp [entriesAll] at hx
  | element name attributes children rest ihc ihr =>
    rw [zipIdx_entriesAll_element]
    intro x hx y hy hlt hle
    rw [List.mem_cons, List.mem_append] at hx hy
    rcases hx with rfl | hx | hx
    · -- Inside the element are the entries of its children, and no others.
      dsimp only at hlt hle ⊢
      rcases hy with rfl | hy | hy
      · exact absurd hlt (Nat.lt_irrefl _)
      · have hlast := last_bounds_of_mem hy
        obtain ⟨q, hq, hbound⟩ := parent_of_mem hy
        exact ⟨by omega, q, hq, by omega⟩
      · have hbounds := bounds_of_mem hy
        omega
    · have hx' := bounds_of_mem hx
      have hlast := last_bounds_of_mem hx
      rcases hy with rfl | hy | hy
      · dsimp only at hlt
        omega
      · exact ihc _ _ x hx y hy hlt hle
      · have hbounds := bounds_of_mem hy
        omega
    · have hx' := bounds_of_mem hx
      rcases hy with rfl | hy | hy
      · dsimp only at hlt
        omega
      · have hbounds := bounds_of_mem hy
        omega
      · exact ihr _ _ x hx y hy hlt hle
  | leaf node label rest h ih =>
    rw [h.zipIdx_entriesAll]
    intro x hx y hy hlt hle
    rw [List.mem_cons] at hx hy
    rcases hx with rfl | hx
    · dsimp only at hlt hle
      omega
    · have hx' := bounds_of_mem hx
      rcases hy with rfl | hy
      · dsimp only at hlt
        omega
      · exact ih _ _ x hx y hy hlt hle

end Node

namespace Document

variable (nodes : List Node)

theorem size_ofNodes : (ofNodes nodes).size = Node.sizeAll nodes + 1 := by
  simp [ofNodes, size, Node.length_entriesAll]

theorem last_zero : (ofNodes nodes).last 0 = Node.sizeAll nodes := by
  simp [ofNodes, last]

/-- **The labels of a document** by number: the document, then those of its trees. -/
theorem map_label_range : (List.range (ofNodes nodes).size).map (ofNodes nodes).label =
    .document :: nodes.flatMap Node.labels := by
  have hall : (List.range (ofNodes nodes).size).map (ofNodes nodes).label =
      (ofNodes nodes).entries.toList.map Entry.label := by
    apply List.ext_getElem
    · simp [size]
    · intro i hi hi'
      simp only [List.length_map, List.length_range, size] at hi
      simp [label, Array.getElem?_eq_getElem hi]
  rw [hall]
  show Label.document :: (Node.entriesAll 0 1 nodes).map Entry.label = _
  rw [Node.map_label_entriesAll]

theorem cons_descendants_zero : 0 :: (ofNodes nodes).descendants 0 =
    List.range (ofNodes nodes).size := by
  rw [size_ofNodes, descendants, last_zero, numbers, List.range_eq_range', List.range'_succ]
  simp

theorem entries_zero_or_mem {n : Nat} {e : Entry} (h : (ofNodes nodes).entries[n]? = some e) :
    (n = 0 ∧ e = ⟨.document, none, Node.sizeAll nodes⟩) ∨
      (e, n) ∈ (Node.entriesAll 0 1 nodes).zipIdx 1 := by
  cases n with
  | zero =>
    left
    exact ⟨rfl, by simpa [ofNodes] using h.symm⟩
  | succ k =>
    right
    rw [List.mk_mem_zipIdx_iff_le_and_getElem?_sub]
    exact ⟨by omega, by simpa [ofNodes] using h⟩

theorem parent?_zero : (ofNodes nodes).parent? 0 = none := by
  simp [ofNodes, parent?]

/-- **Every node but the document is held** by an earlier one that it does not lie behind. -/
theorem exists_parent {n : Nat} (hpos : 0 < n) (hn : n < (ofNodes nodes).size) :
    ∃ p, (ofNodes nodes).parent? n = some p ∧ p < n ∧ n ≤ (ofNodes nodes).last p := by
  obtain ⟨x, hget⟩ : ∃ x, (ofNodes nodes).entries[n]? = some x :=
    ⟨_, Array.getElem?_eq_getElem hn⟩
  have hparent : ∀ p, x.parent = some p → (ofNodes nodes).parent? n = some p := by
    intro p hp
    rw [parent?, hget]
    exact hp
  rcases entries_zero_or_mem nodes hget with ⟨rfl, -⟩ | hmem
  · exact absurd hpos (Nat.lt_irrefl 0)
  · rcases Node.held_entriesAll 0 1 nodes _ hmem with hp | ⟨y, hy, hlt, hp, hlast⟩
    · refine ⟨0, hparent 0 hp, hpos, ?_⟩
      rw [last_zero]
      rw [size_ofNodes] at hn
      omega
    · have hyget : (ofNodes nodes).entries[y.2]? = some y.1 := by
        obtain ⟨hle, hsub⟩ := List.mk_mem_zipIdx_iff_le_and_getElem?_sub.mp hy
        obtain ⟨k, hk⟩ := Nat.exists_eq_add_of_le' hle
        rw [hk] at hsub ⊢
        simpa [ofNodes] using hsub
      refine ⟨y.2, hparent y.2 hp, hlt, ?_⟩
      rw [last, hyget]
      exact hlast

theorem lt_of_parent? {n p : Nat} (h : (ofNodes nodes).parent? n = some p) : p < n := by
  rcases Nat.eq_zero_or_pos n with rfl | hpos
  · rw [parent?_zero] at h
    cases h
  · by_cases hn : n < (ofNodes nodes).size
    · obtain ⟨q, hq, hlt, -⟩ := exists_parent nodes hpos hn
      rw [h] at hq
      rwa [Option.some.inj hq]
    · have hnone : (ofNodes nodes).entries[n]? = none :=
        Array.getElem?_eq_none (Nat.le_of_not_lt hn)
      rw [parent?, hnone] at h
      cases h

/-- **Every node but the document is a child** of an earlier one. -/
theorem exists_mem_children {n : Nat} (hpos : 0 < n) (hn : n < (ofNodes nodes).size) :
    ∃ p, p < (ofNodes nodes).size ∧ n ∈ (ofNodes nodes).children p := by
  obtain ⟨p, hparent, hlt, hlast⟩ := exists_parent nodes hpos hn
  refine ⟨p, Nat.lt_trans hlt hn, ?_⟩
  rw [children, List.mem_filter, descendants, numbers, List.mem_range'_1, hparent]
  exact ⟨by omega, beq_self_eq_true _⟩

/-- The last node inside a node is that node or comes after it. -/
theorem le_last (n : Nat) : n ≤ (ofNodes nodes).last n := by
  rw [last]
  split
  next e hget =>
    rcases entries_zero_or_mem nodes hget with ⟨rfl, -⟩ | hmem
    · exact Nat.zero_le _
    · exact (Node.last_bounds_of_mem hmem).1
  next => exact Nat.le_refl n

/-- The last node inside a node is a node of the document. -/
theorem last_lt {n : Nat} (hn : n < (ofNodes nodes).size) :
    (ofNodes nodes).last n < (ofNodes nodes).size := by
  obtain ⟨x, hget⟩ : ∃ x, (ofNodes nodes).entries[n]? = some x :=
    ⟨_, Array.getElem?_eq_getElem hn⟩
  rw [last, hget, size_ofNodes]
  rcases entries_zero_or_mem nodes hget with ⟨-, rfl⟩ | hmem
  · exact Nat.lt_succ_self _
  · have hlast : x.last < 1 + Node.sizeAll nodes := (Node.last_bounds_of_mem hmem).2
    show x.last < _
    omega

/-- **What begins inside a node ends inside it**, and is held by that or by one inside that. -/
theorem nested {n m : Nat} (hm : m < (ofNodes nodes).size) (hlt : n < m)
    (hle : m ≤ (ofNodes nodes).last n) :
    (ofNodes nodes).last m ≤ (ofNodes nodes).last n ∧
      ∃ q, (ofNodes nodes).parent? m = some q ∧ n ≤ q := by
  obtain ⟨x, hx⟩ : ∃ x, (ofNodes nodes).entries[n]? = some x :=
    ⟨_, Array.getElem?_eq_getElem (Nat.lt_trans hlt hm)⟩
  obtain ⟨y, hy⟩ : ∃ y, (ofNodes nodes).entries[m]? = some y :=
    ⟨_, Array.getElem?_eq_getElem hm⟩
  rcases entries_zero_or_mem nodes hx with ⟨rfl, -⟩ | hxmem
  · have hlast := last_lt nodes hm
    obtain ⟨q, hq, -⟩ := exists_parent nodes hlt hm
    rw [size_ofNodes] at hlast
    rw [last_zero]
    exact ⟨by omega, q, hq, Nat.zero_le q⟩
  · rcases entries_zero_or_mem nodes hy with ⟨rfl, -⟩ | hymem
    · exact absurd hlt (Nat.not_lt_zero n)
    · rw [last, hx] at hle
      rw [last, last, hx, hy, parent?, hy]
      exact Node.nested_entriesAll 0 1 nodes _ hxmem _ hymem hlt hle

end Document

end ScreenInspector.Markup
