/-
  ScreenInspector/Proofs/LocationPaths.lean
  =========================================
  **A path leads along chains of single steps.**

  What a step selects from one node is told without the loop that finds it: the candidates on its
  axis that pass its test, the nearest first (`pairwise_candidates`), of which each predicate leaves
  those that it keeps at their place among what the predicates before it left (`survivors`).  A
  chain is a node for each step, and every one of them survives the step from the one before it.

  `followSteps` works on lists that are put in order after each step.  It gives exactly the ends of
  the chains (`followSteps_eq_ok_iff`), because a list in order has the members it was made from and
  a step looks at one member at a time.  So nothing depends on the order of the nodes that steps
  start from, and paths from several nodes lead where the paths from each of them lead.
-/
import ScreenInspector.Proofs.Axes
import ScreenInspector.Proofs.NodeLists
import ScreenInspector.Proofs.Outcomes

namespace ScreenInspector.Expression

open ScreenInspector.Markup (Document)

/-! ### What predicates leave -/

namespace Meaning

variable {predicate : Meaning} {predicates : List Meaning} {ns : List Nat}

/-- Whether a predicate keeps a node at a place, counted among so many. -/
def keepsAt (predicate : Meaning) (size : Nat) (x : Nat × Nat) : Bool :=
  match predicate ⟨x.1, x.2, size⟩ with
  | .ok v => v.keeps x.2
  | .error _ => false

/-- The nodes that a predicate leaves, each judged at its place from 1 on. -/
def leaves (predicate : Meaning) (ns : List Nat) : List Nat :=
  ((ns.zipIdx 1).filter (predicate.keepsAt ns.length)).map Prod.fst

/-- A predicate has a value at each of some nodes. -/
def SucceedsOn (predicate : Meaning) (size : Nat) (places : List (Nat × Nat)) : Prop :=
  ∀ x ∈ places, ∃ v, predicate ⟨x.1, x.2, size⟩ = .ok v

theorem keepFrom_eq_ok_iff {size position : Nat} {kept : List Nat} :
    keepFrom predicate size position ns = .ok kept ↔
      predicate.SucceedsOn size (ns.zipIdx position) ∧
        kept = ((ns.zipIdx position).filter (predicate.keepsAt size)).map Prod.fst := by
  induction ns generalizing position kept with
  | nil => simp [keepFrom, SucceedsOn, eq_comm]
  | cons n rest ih =>
    rw [keepFrom, List.zipIdx_cons, SucceedsOn, List.forall_mem_cons]
    cases hv : predicate ⟨n, position, size⟩ with
    | error fault => simp
    | ok v =>
      have hkeeps : predicate.keepsAt size (n, position) = v.keeps position := by
        simp only [keepsAt, hv]
      rw [ok_bind, bind_eq_ok_iff, List.filter_cons, hkeeps]
      constructor
      · rintro ⟨more, hmore, hkept⟩
        obtain ⟨hrest, rfl⟩ := ih.mp hmore
        refine ⟨⟨⟨v, rfl⟩, hrest⟩, ?_⟩
        rw [pure_eq_ok, Except.ok.injEq] at hkept
        rw [← hkept]
        split
        · rfl
        · rfl
      · rintro ⟨⟨-, hrest⟩, rfl⟩
        refine ⟨_, ih.mpr ⟨hrest, rfl⟩, ?_⟩
        rw [pure_eq_ok]
        split
        · rfl
        · rfl

def leavesAll (predicates : List Meaning) (ns : List Nat) : List Nat :=
  predicates.foldl (fun left predicate => predicate.leaves left) ns

/-- Every predicate has a value at each node that the ones before it leave. -/
def SucceedAll : List Meaning → List Nat → Prop
  | [], _ => True
  | predicate :: rest, ns =>
    predicate.SucceedsOn ns.length (ns.zipIdx 1) ∧ SucceedAll rest (predicate.leaves ns)

theorem filterBy_eq_ok_iff {kept : List Nat} :
    filterBy predicates ns = .ok kept ↔
      SucceedAll predicates ns ∧ kept = leavesAll predicates ns := by
  induction predicates generalizing ns with
  | nil => simp [filterBy, SucceedAll, leavesAll, eq_comm]
  | cons predicate rest ih =>
    rw [filterBy, bind_eq_ok_iff, SucceedAll, leavesAll, List.foldl_cons]
    constructor
    · rintro ⟨left, hleft, hrest⟩
      obtain ⟨hsucceeds, rfl⟩ := keepFrom_eq_ok_iff.mp hleft
      obtain ⟨hall, hkept⟩ := ih.mp hrest
      exact ⟨⟨hsucceeds, hall⟩, hkept⟩
    · rintro ⟨⟨hsucceeds, hall⟩, hkept⟩
      exact ⟨predicate.leaves ns, keepFrom_eq_ok_iff.mpr ⟨hsucceeds, rfl⟩, ih.mpr ⟨hall, hkept⟩⟩

theorem leaves_sublist (predicate : Meaning) (ns : List Nat) :
    (predicate.leaves ns).Sublist ns := by
  have h := (List.filter_sublist (p := predicate.keepsAt ns.length) (l := ns.zipIdx 1)).map Prod.fst
  rwa [List.zipIdx_map_fst] at h

theorem leavesAll_sublist (predicates : List Meaning) (ns : List Nat) :
    (leavesAll predicates ns).Sublist ns := by
  induction predicates generalizing ns with
  | nil => exact List.Sublist.refl ns
  | cons predicate rest ih => exact (ih (predicate.leaves ns)).trans (predicate.leaves_sublist ns)

end Meaning

/-! ### Steps from one node -/

namespace StepMeaning

variable {d : Document} {s : StepMeaning} {n : Nat}

/-- The nodes on the axis of a step that pass its test, the nearest first. -/
def candidates (d : Document) (s : StepMeaning) (n : Nat) : List Nat :=
  (s.axis.nodes d n).filter fun m => s.test.admits d m

def survivors (d : Document) (s : StepMeaning) (n : Nat) : List Nat :=
  Meaning.leavesAll s.predicates (s.candidates d n)

def SucceedsAt (d : Document) (s : StepMeaning) (n : Nat) : Prop :=
  Meaning.SucceedAll s.predicates (s.candidates d n)

theorem selectAll_eq_ok_iff {ns found : List Nat} :
    s.selectAll d ns = .ok found ↔
      (∀ n ∈ ns, s.SucceedsAt d n) ∧ found = ns.flatMap (s.survivors d) := by
  induction ns generalizing found with
  | nil => simp [selectAll, eq_comm]
  | cons n rest ih =>
    rw [selectAll, bind_eq_ok_iff, List.forall_mem_cons, List.flatMap_cons]
    constructor
    · rintro ⟨here, hhere, h⟩
      obtain ⟨more, hmore, hfound⟩ := bind_eq_ok_iff.mp h
      obtain ⟨hsucceeds, rfl⟩ := Meaning.filterBy_eq_ok_iff.mp hhere
      obtain ⟨hall, rfl⟩ := ih.mp hmore
      exact ⟨⟨hsucceeds, hall⟩, (Except.ok.inj hfound).symm⟩
    · rintro ⟨⟨hsucceeds, hall⟩, rfl⟩
      refine ⟨s.survivors d n, Meaning.filterBy_eq_ok_iff.mpr ⟨hsucceeds, rfl⟩, ?_⟩
      exact bind_eq_ok_iff.mpr ⟨rest.flatMap (s.survivors d), ih.mpr ⟨hall, rfl⟩, rfl⟩

theorem pairwise_candidates (nodes : List Markup.Node) (s : StepMeaning) (n : Nat) :
    (s.candidates (Document.ofNodes nodes) n).Pairwise s.axis.Nearer :=
  (pairwise_nodes nodes n s.axis).filter _

theorem survivors_subset (d : Document) (s : StepMeaning) (n : Nat) :
    s.survivors d n ⊆ s.axis.nodes d n := by
  intro m hm
  have hcandidate := (Meaning.leavesAll_sublist s.predicates (s.candidates d n)).subset hm
  exact List.mem_of_mem_filter hcandidate

end StepMeaning

/-! ### Chains -/

variable {d : Document} {s : StepMeaning} {rest steps : List StepMeaning} {n k : Nat}

/-- Steps lead from a node to another over a node for each of them, and every node survives the step
from the one before it. -/
inductive Chain (d : Document) : List StepMeaning → Nat → Nat → Prop
  | nil (n : Nat) : Chain d [] n n
  | cons {s rest n m k} (survives : m ∈ s.survivors d n) (onward : Chain d rest m k) :
    Chain d (s :: rest) n k

theorem chain_nil_iff : Chain d [] n k ↔ k = n := by
  constructor
  · rintro ⟨⟩
    rfl
  · rintro rfl
    exact .nil k

theorem chain_cons_iff : Chain d (s :: rest) n k ↔ ∃ m ∈ s.survivors d n, Chain d rest m k := by
  constructor
  · rintro ⟨⟩
    next m hm hrest => exact ⟨m, hm, hrest⟩
  · rintro ⟨m, hm, hrest⟩
    exact .cons hm hrest

/-- From any of some nodes: a chain begins with a survivor of its first step. -/
theorem exists_chain_cons_iff {ns : List Nat} {s : StepMeaning} {rest : List StepMeaning}
    {k : Nat} : (∃ m, (∃ n ∈ ns, m ∈ s.survivors d n) ∧ Chain d rest m k) ↔
      ∃ n ∈ ns, Chain d (s :: rest) n k := by
  simp only [chain_cons_iff]
  constructor
  · rintro ⟨m, ⟨n, hn, hm⟩, hchain⟩
    exact ⟨n, hn, m, hm, hchain⟩
  · rintro ⟨n, hn, m, hm, hchain⟩
    exact ⟨m, ⟨n, hn, hm⟩, hchain⟩

/-- No predicate of the steps fails at a candidate of a node that the steps before it lead to. -/
def SucceedAlong (d : Document) (steps : List StepMeaning) (n : Nat) : Prop :=
  ∀ before s after m, steps = before ++ s :: after → Chain d before n m → s.SucceedsAt d m

theorem succeedAlong_nil (d : Document) (n : Nat) : SucceedAlong d [] n := by
  intro before s after m hsteps
  simp at hsteps

theorem succeedAlong_cons_iff : SucceedAlong d (s :: rest) n ↔
    s.SucceedsAt d n ∧ ∀ m ∈ s.survivors d n, SucceedAlong d rest m := by
  constructor
  · intro h
    refine ⟨h [] s rest n rfl (.nil n), fun m hm before t after k hrest hchain => ?_⟩
    exact h (s :: before) t after k (by rw [hrest, List.cons_append]) (.cons hm hchain)
  · rintro ⟨hhere, hthere⟩ before t after k hsteps hchain
    cases hchain with
    | nil =>
      obtain ⟨rfl, -⟩ := List.cons.inj hsteps
      exact hhere
    | cons hm hchain =>
      obtain ⟨rfl, hrest⟩ := List.cons.inj hsteps
      exact hthere _ hm _ t after k hrest hchain

/-! ### Following steps -/

/-- A list is the nodes in document order that some condition holds of. -/
def Lists (ids : List Nat) (holds : Nat → Prop) : Prop :=
  ids.Pairwise (· < ·) ∧ ∀ k, k ∈ ids ↔ holds k

theorem Lists.eq {ids more : List Nat} {holds : Nat → Prop} (h : Lists ids holds)
    (hmore : Lists more holds) : ids = more := by
  apply h.1.eq_of_mem_iff hmore.1
  intro k
  rw [h.2, hmore.2]

/-- **Following steps lists the ends of the chains** from some nodes, however these are arranged if
there is a step, and it has a value iff no predicate fails on the way. -/
theorem followSteps_eq_ok_iff {ns : List Nat} {v : Value}
    (haxis : ∀ s ∈ steps, s.axis ≠ .attribute) (hns : steps = [] → ns.Pairwise (· < ·)) :
    followSteps d steps ns = .ok v ↔
      (∀ n ∈ ns, SucceedAlong d steps n) ∧
        ∃ ids, v = .nodes ids ∧ Lists ids fun k => ∃ n ∈ ns, Chain d steps n k := by
  induction steps generalizing ns with
  | nil =>
    have hstart : Lists ns fun k => ∃ n ∈ ns, Chain d [] n k := by
      refine ⟨hns rfl, fun k => ?_⟩
      simp [chain_nil_iff]
    rw [followSteps, Except.ok.injEq]
    constructor
    · rintro rfl
      exact ⟨fun n _ => succeedAlong_nil d n, ns, rfl, hstart⟩
    · rintro ⟨-, ids, rfl, hids⟩
      rw [hids.eq hstart]
  | cons s rest ih =>
    obtain ⟨hs, hrest⟩ := List.forall_mem_cons.mp haxis
    -- The step leads to the survivors from all nodes; putting them in order keeps them all.
    have hmem : ∀ m, m ∈ inDocumentOrder (ns.flatMap (s.survivors d)) ↔
        ∃ n ∈ ns, m ∈ s.survivors d n := by
      intro m
      rw [mem_inDocumentOrder, List.mem_flatMap]
    have hends : ∀ k, (∃ m ∈ inDocumentOrder (ns.flatMap (s.survivors d)), Chain d rest m k) ↔
        ∃ n ∈ ns, Chain d (s :: rest) n k := by
      intro k
      simp only [hmem, exists_chain_cons_iff]
    have hlater := @ih (inDocumentOrder (ns.flatMap (s.survivors d))) hrest
      fun _ => pairwise_inDocumentOrder _
    simp only [hends] at hlater
    simp only [hmem] at hlater
    rw [followSteps, if_neg hs, bind_eq_ok_iff]
    simp only [succeedAlong_cons_iff]
    constructor
    · rintro ⟨found, hfound, hv⟩
      obtain ⟨hhere, rfl⟩ := StepMeaning.selectAll_eq_ok_iff.mp hfound
      obtain ⟨hthere, hids⟩ := hlater.mp hv
      exact ⟨fun n hn => ⟨hhere n hn, fun m hm => hthere m ⟨n, hn, hm⟩⟩, hids⟩
    · rintro ⟨hsucceed, hids⟩
      refine ⟨_, StepMeaning.selectAll_eq_ok_iff.mpr ⟨fun n hn => (hsucceed n hn).1, rfl⟩, ?_⟩
      apply hlater.mpr
      refine ⟨?_, hids⟩
      rintro m ⟨n, hn, hm⟩
      exact (hsucceed n hn).2 m hm

/-- What steps list from any nodes are ends of chains, also if there is no step and the nodes are
listed as they come. -/
theorem mem_of_followSteps {ns ids : List Nat} (haxis : ∀ s ∈ steps, s.axis ≠ .attribute)
    (h : followSteps d steps ns = .ok (.nodes ids)) :
    (∀ n ∈ ns, SucceedAlong d steps n) ∧ ∀ k, k ∈ ids ↔ ∃ n ∈ ns, Chain d steps n k := by
  cases steps with
  | nil =>
    rw [followSteps, Except.ok.injEq, Value.nodes.injEq] at h
    subst h
    refine ⟨fun n _ => succeedAlong_nil d n, fun k => ?_⟩
    simp [chain_nil_iff]
  | cons s rest =>
    obtain ⟨hsucceed, more, hmore, hlists⟩ := (followSteps_eq_ok_iff haxis (by simp)).mp h
    obtain rfl := Value.nodes.inj hmore
    exact ⟨hsucceed, hlists.2⟩

theorem exists_lists_ends (d : Document) (steps : List StepMeaning) (ns : List Nat) :
    ∃ ids, Lists ids fun k => ∃ n ∈ ns, Chain d steps n k := by
  induction steps generalizing ns with
  | nil =>
    refine ⟨inDocumentOrder ns, pairwise_inDocumentOrder ns, fun k => ?_⟩
    simp [chain_nil_iff]
  | cons s rest ih =>
    obtain ⟨ids, hpairs, hmem⟩ := ih (ns.flatMap (s.survivors d))
    refine ⟨ids, hpairs, fun k => ?_⟩
    rw [hmem]
    simp only [List.mem_flatMap, exists_chain_cons_iff]

/-- **Paths are chains** in the numbered document of any trees.  From a node, steps list exactly the
ends of the chains, in document order and each once, iff no predicate fails on the way; and if none
fails, they do.  The places that predicates see are counted from the nearest node on.  Whether the
nodes that steps start from are put in order first makes no difference.  From the nodes of two lists,
steps list what they list from either of them. -/
theorem followSteps_chains (nodes : List Markup.Node) (steps : List StepMeaning)
    (haxis : ∀ s ∈ steps, s.axis ≠ .attribute) :
    let d := Document.ofNodes nodes
    (∀ n ids, followSteps d steps [n] = .ok (.nodes ids) ↔
      SucceedAlong d steps n ∧ ids.Pairwise (· < ·) ∧ ∀ k, k ∈ ids ↔ Chain d steps n k) ∧
    (∀ n, SucceedAlong d steps n → ∃ ids, followSteps d steps [n] = .ok (.nodes ids)) ∧
    (∀ s ∈ steps, ∀ n, (s.candidates d n).Pairwise s.axis.Nearer) ∧
    (∀ ns v, steps ≠ [] →
      (followSteps d steps (inDocumentOrder ns) = .ok v ↔ followSteps d steps ns = .ok v)) ∧
    (∀ ns ms as bs, followSteps d steps ns = .ok (.nodes as) →
      followSteps d steps ms = .ok (.nodes bs) →
      followSteps d steps (inDocumentOrder (ns ++ ms)) =
        .ok (.nodes (inDocumentOrder (as ++ bs)))) := by
  intro d
  have hone : ∀ n v, followSteps d steps [n] = .ok v ↔
      SucceedAlong d steps n ∧ ∃ ids, v = .nodes ids ∧ Lists ids fun k => Chain d steps n k := by
    intro n v
    rw [followSteps_eq_ok_iff haxis fun _ => List.pairwise_singleton _ n]
    simp only [List.mem_singleton, forall_eq, exists_eq_left]
  refine ⟨?_, ?_, fun s _ n => s.pairwise_candidates nodes n, ?_, ?_⟩
  · intro n ids
    rw [hone]
    constructor
    · rintro ⟨hsucceed, more, hmore, hlists⟩
      obtain rfl := Value.nodes.inj hmore
      exact ⟨hsucceed, hlists⟩
    · rintro ⟨hsucceed, hlists⟩
      exact ⟨hsucceed, ids, rfl, hlists⟩
  · intro n hsucceed
    obtain ⟨ids, hlists⟩ := exists_lists_ends d steps [n]
    simp only [List.mem_singleton, exists_eq_left] at hlists
    exact ⟨ids, (hone n _).mpr ⟨hsucceed, ids, rfl, hlists⟩⟩
  · intro ns v hsteps
    rw [followSteps_eq_ok_iff haxis fun h => absurd h hsteps,
      followSteps_eq_ok_iff haxis fun h => absurd h hsteps]
    simp only [mem_inDocumentOrder]
  · intro ns ms as bs has hbs
    obtain ⟨hns, hmemas⟩ := mem_of_followSteps haxis has
    obtain ⟨hms, hmembs⟩ := mem_of_followSteps haxis hbs
    rw [followSteps_eq_ok_iff haxis fun _ => pairwise_inDocumentOrder _]
    refine ⟨?_, _, rfl, pairwise_inDocumentOrder _, ?_⟩
    · intro n hn
      rcases List.mem_append.mp (mem_inDocumentOrder.mp hn) with hn | hn
      · exact hns n hn
      · exact hms n hn
    · intro k
      simp only [mem_inDocumentOrder, List.mem_append, hmemas, hmembs, or_and_right, exists_or]

def nestedButtons : List Markup.Node :=
  [.element "Frame" [] [.element "Button" [] [],
    .element "List" [] [.element "Button" [] [], .element "Button" [] []]]]

/-- From every button inside a node to the innermost element around it. -/
def aroundButtons : List StepMeaning :=
  Step.meanings (.ofNodes nestedButtons) [.step .descendant (.name "Button") [],
    .step .ancestor .anyElement [.number (Number.ofNat 1)]]

/-- The first place on the axis is that of the nearest node, and it is counted for each button, so
the paths from the document lead to the frame and to the list. -/
theorem followSteps_aroundButtons :
    (∀ s ∈ aroundButtons, s.axis ≠ .attribute) ∧
    followSteps (.ofNodes nestedButtons) aroundButtons [0] = .ok (.nodes [1, 3]) ∧
    SucceedAlong (.ofNodes nestedButtons) aroundButtons 0 ∧
    ∀ k, k ∈ [1, 3] ↔ Chain (.ofNodes nestedButtons) aroundButtons 0 k := by
  have haxis : ∀ s ∈ aroundButtons, s.axis ≠ .attribute := by
    simp [aroundButtons, Step.meanings, Step.meaning]
  have hbuttons : inDocumentOrder [2, 4, 5] = [2, 4, 5] := inDocumentOrder_of_pairwise (by decide)
  have haround : inDocumentOrder [1, 3, 3] = [1, 3] := inDocumentOrder_eq (by decide) (by simp)
  have hvalue : followSteps (.ofNodes nestedButtons) aroundButtons [0] = .ok (.nodes [1, 3]) := by
    show followSteps (.ofNodes nestedButtons) _ (inDocumentOrder [2, 4, 5]) = _
    rw [hbuttons]
    show followSteps (.ofNodes nestedButtons) _ (inDocumentOrder [1, 3, 3]) = _
    rw [haround]
    rfl
  obtain ⟨hsucceed, -, hmem⟩ :=
    ((followSteps_chains nestedButtons aroundButtons haxis).1 0 [1, 3]).mp hvalue
  exact ⟨haxis, hvalue, hsucceed, hmem⟩

end ScreenInspector.Expression
