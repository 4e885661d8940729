/-
# Accounting for replacements

What replacing a node does to counts. Whatever is counted node by node changes, at each place where
the node stands, by the difference between what is put in and the node. The number of nodes is such a
count, and so are the numbers of places of a leaf and of the replaced node itself. What is made anew
was not there before, and the journal has one record for each place.
-/
import Mathlib.Algebra.BigOperators.Ring.Finset
import Mathlib.Algebra.Order.BigOperators.Group.List
import Mathlib.Tactic.Ring
import ExprTree.Proofs.Hygiene
import ExprTree.Proofs.Replacing
import ExprTree.Proofs.Serials

namespace ExprTree

namespace Expr

/-! ## Counts over parts -/

theorem sizeAll_eq_sum (es : List Expr) : sizeAll es = (es.map size).sum := by
  induction es with
  | nil => rfl
  | cons e es ih => rw [sizeAll, ih, List.map_cons, List.sum_cons]

theorem occurrencesInAll_eq_sum (node : Expr) (es : List Expr) :
    occurrencesInAll node es = (es.map (occurrencesIn node)).sum := by
  induction es with
  | nil => rfl
  | cons e es ih => rw [occurrencesInAll, ih, List.map_cons, List.sum_cons]

/-- The nodes of an expression are itself and those of whatever a walk goes to from it. -/
theorem size_eq (e : Expr) : e.size = 1 + (e.parts.map size).sum := by
  cases e with
  | lambda serial params body =>
      simp [size, parts, declared, children, Function.comp_def]
  | _ => simp [size, sizeAll_eq_sum, parts, declared, children]

@[simp] theorem occurrencesIn_self (node : Expr) : node.occurrencesIn node = 1 := by
  rw [occurrencesIn.eq_def, if_pos rfl]

/-- A node stands in a parameter list as often as it is one of the entries. -/
theorem countP_eq_sum (node : Expr) (params : List Parameter) :
    params.countP (fun p => parameter p = node)
      = (params.map (occurrencesIn node ∘ parameter)).sum := by
  induction params with
  | nil => rfl
  | cons p params ih =>
      rw [List.countP_cons, List.map_cons, List.sum_cons, ih, Nat.add_comm, Function.comp,
        occurrencesIn.eq_def node (.parameter p)]
      simp

/-- Where another node stands, a node stands in whatever a walk goes to from there. -/
theorem occurrencesIn_of_ne {node e : Expr} (h : e ≠ node) :
    node.occurrencesIn e = (e.parts.map node.occurrencesIn).sum := by
  rw [occurrencesIn.eq_def, if_neg h]
  cases e with
  | lambda serial params body =>
      simp [countP_eq_sum, parts, declared, children]
  | _ => simp [occurrencesInAll_eq_sum, parts, declared, children]

/-- Another node does not stand in a leaf. -/
theorem occurrencesIn_of_isLeaf {node e : Expr} (hleaf : e.isLeaf = true) (h : e ≠ node) :
    node.occurrencesIn e = 0 := by
  rw [occurrencesIn_of_ne h, parts_of_isLeaf hleaf]
  rfl

/-! ## What changes a count -/

/-- A parameter that does not stand in an expression has no place there. -/
theorem occurrencesIn_of_notMem_parameters {p : Parameter} {e : Expr} (h : p ∉ e.parameters) :
    (parameter p).occurrencesIn e = 0 := by
  induction e using parts_induction with
  | node e ih =>
      have hne : e ≠ parameter p := by
        rintro rfl
        exact h (List.mem_singleton_self p)
      rw [occurrencesIn_of_ne hne]
      refine List.sum_eq_zero fun n hn => ?_
      obtain ⟨part, hpart, rfl⟩ := List.mem_map.mp hn
      refine ih part hpart fun hp => h ?_
      rcases List.mem_append.mp hpart with hpart | hpart
      · -- A part that is declared is a parameter, which stands in the list of the lambda.
        obtain ⟨q, hq, rfl⟩ := List.mem_map.mp hpart
        obtain rfl := List.mem_singleton.mp hp
        exact binders_subset_parameters e (List.mem_flatMap.mpr ⟨e, mem_nodes_self e, hq⟩)
      · exact parameters_subset (mem_nodes_of_mem_children hpart) hp

section Copies

variable {node replacement e e' : Expr} {first last : Nat}

/-- **Counting in a copy.** Let a count go by parts at all composite nodes other than `node` and at
those with new serials, with the same share of the node itself. In a copy it differs by what
`replacement` counts more than `node`, as often as `node` stands there. -/
theorem Copied.count_eq (count : Expr → ℤ) {own : ℤ}
    (hold : ∀ a, a ≠ node → a.isLeaf = false → count a = own + (a.parts.map count).sum)
    (hnew : ∀ a serial, a.isLeaf = false → a.serial? = some serial → first ≤ serial →
      count a = own + (a.parts.map count).sum)
    (h : Copied (replacing node replacement) first last e e') :
    count e' = count e + node.occurrencesIn e * (count replacement - count node) := by
  induction e using parts_induction generalizing e' with
  | node e ih =>
      by_cases heq : e = node
      · obtain rfl := heq
        rw [h.eq_of_picked (if_pos rfl), occurrencesIn_self]
        ring
      · have hpick : replacing node replacement e = none := replacing_eq_none_iff.mpr heq
        cases h with
        | picked h => cases hpick ▸ h
        | leaf _ hleaf =>
            rw [occurrencesIn_of_isLeaf hleaf heq]
            ring
        | @built _ _ serial _ hleaf hleaf' hserial hfirst _ _ hparts =>
            -- The parts differ one by one, and the shares of the two nodes are the same.
            have hcounts : e'.parts.map count = e.parts.map fun part =>
                count part + node.occurrencesIn part * (count replacement - count node) :=
              map_eq_map_of_forall₂ hparts fun part hpart part' => ih part hpart
            have hoccurrences : (node.occurrencesIn e : ℤ)
                = (e.parts.map fun part => (node.occurrencesIn part : ℤ)).sum := by
              rw [occurrencesIn_of_ne heq, Nat.cast_list_sum, List.map_map]
              rfl
            rw [hold e heq hleaf, hnew e' serial hleaf' hserial hfirst, hcounts, List.sum_map_add,
              List.sum_map_mul_right, hoccurrences, add_assoc]

/-- The number of nodes in a copy. -/
theorem Copied.size_eq (h : Copied (replacing node replacement) first last e e') :
    (e'.size : ℤ) = e.size + node.occurrencesIn e * (replacement.size - node.size) := by
  have hparts : ∀ a : Expr, (a.size : ℤ) = 1 + (a.parts.map fun part => (part.size : ℤ)).sum := by
    intro a
    rw [Expr.size_eq, Nat.cast_add, Nat.cast_list_sum, List.map_map]
    rfl
  exact h.count_eq (fun a => a.size) (fun a _ _ => hparts a) fun a _ _ _ _ => hparts a

/-- In how many places of a copy a node stands that is the replaced one or a leaf. -/
theorem Copied.occurrencesIn_eq {n : Expr} (h : Copied (replacing node replacement) first last e e')
    (hn : n = node ∨ n.isLeaf = true)
    (hnode : ∀ serial, node.serial? = some serial → serial < first) :
    (n.occurrencesIn e' : ℤ) = n.occurrencesIn e +
      node.occurrencesIn e * (n.occurrencesIn replacement - n.occurrencesIn node) := by
  have hparts : ∀ a, a ≠ n → (n.occurrencesIn a : ℤ)
      = 0 + (a.parts.map fun part => (n.occurrencesIn part : ℤ)).sum := by
    intro a ha
    rw [occurrencesIn_of_ne ha, Nat.cast_list_sum, List.map_map, zero_add]
    rfl
  refine h.count_eq (fun a => n.occurrencesIn a) (fun a ha hleaf => hparts a ?_)
    fun a serial hleaf hserial hfirst => hparts a ?_
  · rintro rfl
    rcases hn with rfl | hn
    · exact ha rfl
    · rw [hleaf] at hn
      cases hn
  · rintro rfl
    rcases hn with rfl | hn
    · exact Nat.not_lt.mpr hfirst (hnode serial hserial)
    · rw [hleaf] at hn
      cases hn

/-! ## What stands where -/

/-- What stands below a node is smaller. -/
theorem size_lt_of_mem_children {child : Expr} (h : child ∈ e.children) : child.size < e.size := by
  have hpart : child ∈ e.parts := List.mem_append_right _ h
  rw [Expr.size_eq e]
  exact Nat.lt_one_add_iff.mpr (List.le_sum_of_mem (List.mem_map_of_mem hpart))

theorem size_le_of_at? {n : Expr} {place : List Nat} (h : e.at? place = some n) :
    n.size ≤ e.size := by
  induction place generalizing e with
  | nil => exact Nat.le_of_eq (congrArg size (Option.some.inj h).symm)
  | cons position place ih =>
      obtain ⟨child, hchild, h⟩ := Option.bind_eq_some_iff.mp h
      have hlt := size_lt_of_mem_children (List.mem_of_getElem? hchild)
      exact Nat.le_trans (ih h) (Nat.le_of_lt hlt)

/-- What is put in stands wherever the node stood. -/
theorem Copied.at?_of_node {place : List Nat}
    (h : Copied (replacing node replacement) first last e e') (hplace : e.at? place = some node) :
    e'.at? place = some replacement := by
  induction place generalizing e e' with
  | nil =>
      obtain rfl := Option.some.inj hplace
      exact congrArg some (h.eq_of_picked (if_pos rfl))
  | cons position place ih =>
      obtain ⟨child, hchild, hplace⟩ := Option.bind_eq_some_iff.mp hplace
      have hne : e ≠ node := by
        rintro rfl
        have hlt := size_lt_of_mem_children (List.mem_of_getElem? hchild)
        exact Nat.not_lt.mpr (size_le_of_at? hplace) hlt
      obtain ⟨child', hchild', hcopied⟩ :=
        exists_getElem?_of_forall₂ (h.children (replacing_eq_none_iff.mpr hne)) hchild
      exact Option.bind_eq_some_iff.mpr ⟨child', hchild', ih hcopied hplace⟩

/-- Outside of what is put in, composite nodes have new serials. -/
theorem Copied.exists_serial_of_at? {place : List Nat} {n : Expr}
    (h : Copied (replacing node replacement) first last e e') (hplace : e'.at? place = some n)
    (hleaf : n.isLeaf = false)
    (houtside : ∀ earlier, earlier <+: place → e.at? earlier ≠ some node) :
    ∃ serial, n.serial? = some serial ∧ first ≤ serial := by
  induction place generalizing e e' with
  | nil =>
      have hne : e ≠ node := fun heq => houtside [] List.nil_prefix (congrArg some heq)
      have hpick : replacing node replacement e = none := replacing_eq_none_iff.mpr hne
      obtain rfl := Option.some.inj hplace
      cases h with
      | picked h => cases hpick ▸ h
      | leaf _ h => cases hleaf ▸ h
      | built _ _ _ hserial hfirst => exact ⟨_, hserial, hfirst⟩
  | cons position place ih =>
      have hne : e ≠ node := fun heq => houtside [] List.nil_prefix (congrArg some heq)
      have hpick : replacing node replacement e = none := replacing_eq_none_iff.mpr hne
      obtain ⟨child', hchild', hplace⟩ := Option.bind_eq_some_iff.mp hplace
      -- Child by child, what stands in the copy comes from what stands in the expression.
      have hflip : List.Forall₂ (flip (Copied (replacing node replacement) first last))
          e'.children e.children := List.Forall₂.flip (h.children hpick)
      obtain ⟨child, hchild, hcopied⟩ := exists_getElem?_of_forall₂ hflip hchild'
      refine ih hcopied hplace fun earlier hprefix hnode => ?_
      refine houtside (position :: earlier) (List.cons_prefix_cons.mpr ⟨rfl, hprefix⟩) ?_
      exact Option.bind_eq_some_iff.mpr ⟨child, hchild, hnode⟩

end Copies

end Expr

/-! ## Records -/

namespace Build

open ExprTree.Expr

variable {node replacement : Expr} {session session' : Session}

/-- Replacing a node in several expressions notes it for each of its places in each of them. -/
theorem journal_of_runIn_substituteAll {event : Event} {es es' : List Expr} {count : Expr → Nat}
    {pick : Pick}
    (hes : ∀ e ∈ es, ∀ {session session' : Session} {e' : Expr},
      runIn (e.substitute pick) session = (.ok e', session') →
      session'.journal.toList = session.journal.toList ++ List.replicate (count e) event)
    (h : runIn (substituteAll pick es) session = (.ok es', session')) :
    session'.journal.toList
      = session.journal.toList ++ List.replicate (es.map count).sum event := by
  induction es generalizing session es' with
  | nil =>
      obtain ⟨-, rfl⟩ := runIn_substituteAll_nil_ok.mp h
      exact (List.append_nil _).symm
  | cons e es ih =>
      obtain ⟨e', middle, rest, he, hrest, rfl⟩ := runIn_substituteAll_cons_ok.mp h
      have hhead := hes e List.mem_cons_self he
      have htail := ih (fun e he => hes e (List.mem_cons_of_mem _ he)) hrest
      rw [htail, hhead, List.append_assoc, List.replicate_append_replicate, List.map_cons,
        List.sum_cons]

/-- **One record for each place**: replacing a node adds these to the journal and nothing else. -/
theorem journal_of_runIn_replace {e e' : Expr}
    (h : runIn (e.replace node replacement) session = (.ok e', session')) :
    session'.journal.toList = session.journal.toList
      ++ List.replicate (node.occurrencesIn e) (.replaced node replacement) := by
  unfold replace at h
  induction e using parts_induction generalizing session session' e' with
  | node e ih =>
      by_cases heq : e = node
      · obtain rfl := heq
        rw [(eq_of_runIn_substitute_picked (if_pos rfl) h).2, occurrencesIn_self]
        exact Array.toList_push
      · have hpick : replacing node replacement e = none := replacing_eq_none_iff.mpr heq
        by_cases hleaf : e.isLeaf = true
        · rw [(eq_of_runIn_substitute_leaf hpick hleaf h).2, occurrencesIn_of_isLeaf hleaf heq]
          exact (List.append_nil _).symm
        · rw [Bool.not_eq_true] at hleaf
          obtain ⟨last, hparts, -, -, -, rfl⟩ := parts_of_runIn_substitute hpick hleaf h
          have hrecords := journal_of_runIn_substituteAll (fun part hpart => ih part hpart) hparts
          rw [occurrencesIn_of_ne heq]
          exact hrecords

end Build

namespace Workspace

open ExprTree.Expr

/-- **Replacement accounting.** Let a node be replaced in an expression that was built. The result has
it in as many places as there were before, times its places in what is put in. Each place changes the
number of nodes by that of what is put in less that of the node. If the node is a leaf, any other leaf
gets its places in what is put in once for each place of the node. What is put in stands wherever the
node stood, and no composite node elsewhere in the result is a node of the expression. The journal
gets one record for each place. -/
theorem Reachable.replace_accounts {w : Workspace} (hw : w.Reachable)
    {tree node replacement result : Expr} (htree : tree ∈ w.exprs) (hnode : node ∈ w.exprs)
    {session' : Session}
    (hrun : (tree.replace node replacement).runIn w.session = (.ok result, session')) :
    node.occurrencesIn result = node.occurrencesIn tree * node.occurrencesIn replacement ∧
    (result.size : ℤ)
      = tree.size + node.occurrencesIn tree * ((replacement.size : ℤ) - node.size) ∧
    (node.isLeaf = true → ∀ n : Expr, n.isLeaf = true → n ≠ node →
      n.occurrencesIn result
        = n.occurrencesIn tree + node.occurrencesIn tree * n.occurrencesIn replacement) ∧
    (∀ place, tree.at? place = some node → result.at? place = some replacement) ∧
    (∀ place n, result.at? place = some n → n.isLeaf = false →
      (∀ earlier, earlier <+: place → tree.at? earlier ≠ some node) → n ∉ tree.nodes) ∧
    session'.journal.toList = w.session.journal.toList
      ++ List.replicate (node.occurrencesIn tree) (.replaced node replacement) := by
  have hcopied := Build.copied_of_runIn (Nat.le_refl _) (Nat.le_refl _) hrun
  have hbelow := hw.numbered node (mem_held_of_mem_exprs hnode) node (mem_nodes_self node)
  refine ⟨?_, hcopied.size_eq, ?_, fun place => hcopied.at?_of_node, ?_,
    Build.journal_of_runIn_replace hrun⟩
  · have hcount := hcopied.occurrencesIn_eq (Or.inl rfl) hbelow
    rw [occurrencesIn_self, Nat.cast_one] at hcount
    have hproduct : (node.occurrencesIn result : ℤ)
        = (node.occurrencesIn tree * node.occurrencesIn replacement : ℕ) := by
      rw [hcount, Nat.cast_mul]
      ring
    exact Nat.cast_injective hproduct
  · intro hleaf n hn hne
    have hcount := hcopied.occurrencesIn_eq (Or.inr hn) hbelow
    rw [occurrencesIn_of_isLeaf hleaf hne.symm, Nat.cast_zero, sub_zero] at hcount
    exact_mod_cast hcount
  · intro place n hplace hleaf houtside hn
    -- The node is new, and the serials in the expression were handed out before.
    obtain ⟨serial, hserial, hfirst⟩ := hcopied.exists_serial_of_at? hplace hleaf houtside
    have hlt := hw.numbered tree (mem_held_of_mem_exprs htree) n hn serial hserial
    exact Nat.not_lt.mpr hfirst hlt

namespace Sums

def x : Parameter := ⟨0, some "x", .int32⟩

def y : Parameter := ⟨1, some "y", .int32⟩

/-- `(x + x)`. -/
def doubled : Expr := .binary 0 .add (.parameter x) (.parameter x)

/-- `(x * y)`. -/
def product : Expr := .binary 1 .mul (.parameter x) (.parameter y)

/-- Two parameters, a sum and a product. -/
def workspace : Workspace where
  session := { serials := 2, parameters := 2 }
  exprs := [product, doubled, .parameter y, .parameter x]

theorem reachable : workspace.Reachable := by
  have hx : Reachable ⟨{ parameters := 1 }, [.parameter x], []⟩ :=
    .step .start (.built (.parameter (some "x") .int32) rfl)
  have hy : Reachable ⟨{ parameters := 2 }, [.parameter y, .parameter x], []⟩ :=
    .step hx (.built (.parameter (some "y") .int32) rfl)
  have hdoubled : Reachable ⟨{ serials := 1, parameters := 2 },
      [doubled, .parameter y, .parameter x], []⟩ :=
    .step hy (.built (@Builds.binary _ (.parameter x) (.parameter x) .add (by simp) (by simp)) rfl)
  exact .step hdoubled
    (.built (@Builds.binary _ (.parameter x) (.parameter y) .mul (by simp) (by simp)) rfl)

/-- With the product in its two places, `x` stands in two places again, and so does `y`. There are
seven nodes, the sum is a new one, and there are two records. -/
theorem replace_doubled_accounts : ∃ result session',
    (doubled.replace (.parameter x) product).runIn workspace.session = (.ok result, session') ∧
    (Expr.parameter x).occurrencesIn result = 2 ∧ (result.size : ℤ) = 7 ∧
    (Expr.parameter y).occurrencesIn result = 2 ∧ result.at? [1] = some product ∧
    result ∉ doubled.nodes ∧
    session'.journal.toList = List.replicate 2 (.replaced (.parameter x) product) := by
  have hrun : (doubled.replace (.parameter x) product).runIn workspace.session
      = (.ok (.binary 2 .add product product), _) := rfl
  obtain ⟨hself, hsize, hleaf, hput, hnew, hjournal⟩ := reachable.replace_accounts
    (by simp [workspace]) (by simp [workspace]) hrun
  refine ⟨_, _, hrun, hself, hsize, hleaf rfl (.parameter y) rfl (by decide), hput [1] rfl, ?_,
    hjournal⟩
  refine hnew [] _ rfl rfl fun earlier hearlier => ?_
  rw [List.prefix_nil.mp hearlier]
  decide

end Sums

end Workspace

end ExprTree
