/-
# The order of the free parameters

The free parameters of an expression are put together from those of its parts: the lists of the
children one after the other, of each parameter only the first entry, without what the node itself
declares. Each parameter that stands free somewhere is listed once, and they are listed in the order
of the places where they first stand free. It does not matter where else lambdas declare them.
-/
import Mathlib.Data.List.Induction
import Mathlib.Data.List.Nodup
import ExprTree.Proofs.Hygiene
import ExprTree.Proofs.Scopes

namespace ExprTree

/-! ## First entries -/

section FirstEntries

variable {α : Type} [DecidableEq α]

/-- An entry at the end stays unless it is listed before. -/
theorem eraseDups_concat (xs : List α) (x : α) :
    (xs ++ [x]).eraseDups = if x ∈ xs then xs.eraseDups else xs.eraseDups ++ [x] := by
  rw [List.eraseDups_append]
  by_cases hx : x ∈ xs <;> simp [List.removeAll, List.eraseDups_cons, hx]

theorem nodup_eraseDups (xs : List α) : xs.eraseDups.Nodup := by
  induction xs using List.reverseRecOn with
  | nil => exact List.nodup_nil
  | append_singleton xs x ih =>
      rw [eraseDups_concat]
      split
      next => exact ih
      next hx =>
        rw [← List.concat_eq_append]
        exact ih.concat (mt List.mem_eraseDups.mp hx)

theorem eraseDups_of_nodup {xs : List α} (h : xs.Nodup) : xs.eraseDups = xs := by
  induction xs using List.reverseRecOn with
  | nil => rfl
  | append_singleton xs x ih =>
      rw [← List.concat_eq_append, List.nodup_concat] at h
      rw [eraseDups_concat, if_neg h.1, ih h.2]

/-- Whether an entry passes a test does not depend on where it is listed. -/
theorem eraseDups_filter (keep : α → Bool) (xs : List α) :
    (xs.filter keep).eraseDups = xs.eraseDups.filter keep := by
  induction xs using List.reverseRecOn with
  | nil => rfl
  | append_singleton xs x ih =>
      rw [List.filter_append, eraseDups_concat]
      by_cases hkeep : keep x = true
      · have hlast : [x].filter keep = [x] := List.filter_cons_of_pos hkeep
        rw [hlast, eraseDups_concat, ih]
        by_cases hx : x ∈ xs <;> simp [hx, hkeep]
      · by_cases hx : x ∈ xs <;> simp [hx, hkeep, ih]

/-- The first entries of two lists are those of the first one, then those of the second one that are
not listed yet. -/
theorem eraseDups_append_eq (xs ys : List α) :
    (xs ++ ys).eraseDups = xs.eraseDups ++ ys.eraseDups.filter (· ∉ xs) := by
  rw [List.eraseDups_append, List.removeAll, eraseDups_filter]
  simp

end FirstEntries

namespace Expr

/-! ## Free parameters from those of the parts -/

mutual

/-- The free parameters of an expression, from those of its parts. The lists of the children follow
one another as the children are visited, so that of a target comes before those of arguments, and of
each parameter the first entry stays. A lambda takes out what it declares. -/
def freeOfParts : Expr → List Parameter
  | .constant .. => []
  | .parameter p => [p]
  | .member _ target .. => (freeOfParts target).eraseDups
  | .call _ _ operands => (freeOfPartsAll operands).eraseDups
  | .unary _ _ operand => (freeOfParts operand).eraseDups
  | .binary _ _ left right => (freeOfParts left ++ freeOfParts right).eraseDups
  | .lambda _ params body => (freeOfParts body).filter (· ∉ params)

/-- The lists of several expressions, one after the other. -/
def freeOfPartsAll : List Expr → List Parameter
  | [] => []
  | e :: es => freeOfParts e ++ freeOfPartsAll es

end

theorem freeOfPartsAll_eq_flatMap (es : List Expr) :
    freeOfPartsAll es = es.flatMap freeOfParts := by
  induction es with
  | nil => rfl
  | cons e es ih => rw [freeOfPartsAll, ih, List.flatMap_cons]

theorem nodup_freeOfParts (e : Expr) : e.freeOfParts.Nodup := by
  induction e with
  | constant => exact List.nodup_nil
  | parameter p => exact List.nodup_singleton p
  | member | call | unary | binary => exact nodup_eraseDups _
  | lambda _ _ _ ih => exact ih.filter _

/-- **The walk finds what the parts have free.** -/
theorem free_eq_freeOfParts (e : Expr) : e.free = e.freeOfParts := by
  induction e with
  | constant => rfl
  | parameter p => exact free_parameter p
  | member _ _ _ _ ih | unary _ _ _ ih =>
      rw [freeOfParts, eraseDups_of_nodup (nodup_freeOfParts _)]
      exact ih
  | call serial method operands ih =>
      rw [freeOfParts]
      induction operands with
      | nil => rfl
      | cons e es ihes =>
          rw [free_call_cons, ih e List.mem_cons_self,
            ihes fun e he => ih e (List.mem_cons_of_mem _ he), freeOfPartsAll, eraseDups_append_eq,
            eraseDups_of_nodup (nodup_freeOfParts e)]
  | binary _ _ left right ihl ihr =>
      rw [free_binary, ihl, ihr, freeOfParts, eraseDups_append_eq,
        eraseDups_of_nodup (nodup_freeOfParts left), eraseDups_of_nodup (nodup_freeOfParts right)]
  | lambda _ _ _ ih => rw [free_lambda, ih, freeOfParts]

/-- One equation for all nodes with parts: the lists of the children, without what is declared. -/
theorem freeOfParts_eq {e : Expr} (h : e.parameter? = none) :
    e.freeOfParts = (e.children.flatMap freeOfParts).eraseDups.filter (· ∉ e.declared) := by
  cases e with
  | parameter => cases h
  | lambda _ params body =>
      simp only [freeOfParts, children, declared, List.flatMap_singleton,
        eraseDups_of_nodup (nodup_freeOfParts body)]
      rfl
  | _ => simp [freeOfParts, freeOfPartsAll_eq_flatMap, children, declared]

/-! ## Free places -/

/-- The parameter stands at the place, and no lambda above the place declares it. -/
def FreeAt (e : Expr) (p : Parameter) (place : List Nat) : Prop :=
  e.at? place = some (.parameter p) ∧ p ∉ e.declaredAbove place

/-- The parameter stands free in one of several expressions. The place begins with the position of
the expression among them. -/
def FreeAmong (es : List Expr) (p : Parameter) : List Nat → Prop
  | [] => False
  | position :: place => ∃ e, es[position]? = some e ∧ e.FreeAt p place

theorem freeAt_nil {e : Expr} {p : Parameter} : e.FreeAt p [] ↔ e = .parameter p := by
  simp [FreeAt, at?, declaredAbove]

theorem freeAt_cons {e : Expr} {p : Parameter} {position : Nat} {place : List Nat} :
    e.FreeAt p (position :: place) ↔
      p ∉ e.declared ∧ FreeAmong e.children p (position :: place) := by
  cases hchild : e.children[position]? with
  | none => simp [FreeAt, FreeAmong, at?, hchild]
  | some child =>
      simp only [FreeAt, FreeAmong, at?, declaredAbove, hchild, Option.bind_some, Option.map_some,
        Option.getD_some, List.mem_append, Option.some.injEq, exists_eq_left']
      tauto

/-- Places in a node with parts are places in its children. -/
theorem freeAt_iff {e : Expr} (h : e.parameter? = none) {p : Parameter} {place : List Nat} :
    e.FreeAt p place ↔ p ∉ e.declared ∧ FreeAmong e.children p place := by
  cases place with
  | nil =>
      rw [freeAt_nil]
      refine iff_of_false ?_ fun h => h.2
      rintro rfl
      cases h
  | cons position place => exact freeAt_cons

/-- A parameter occurs free just if it stands free at some place. -/
theorem occursFree_iff_exists_freeAt {p : Parameter} {e : Expr} :
    OccursFree p e ↔ ∃ place, e.FreeAt p place := by
  constructor
  · intro h
    induction h with
    | parameter => exact ⟨[], freeAt_nil.mpr rfl⟩
    | member _ ih | unary _ ih | left _ ih =>
        obtain ⟨place, hplace⟩ := ih
        exact ⟨0 :: place, freeAt_cons.mpr ⟨List.not_mem_nil, _, rfl, hplace⟩⟩
    | call he _ ih =>
        obtain ⟨place, hplace⟩ := ih
        obtain ⟨position, hposition⟩ := List.getElem?_of_mem he
        exact ⟨position :: place, freeAt_cons.mpr ⟨List.not_mem_nil, _, hposition, hplace⟩⟩
    | right _ ih =>
        obtain ⟨place, hplace⟩ := ih
        exact ⟨1 :: place, freeAt_cons.mpr ⟨List.not_mem_nil, _, rfl, hplace⟩⟩
    | lambda hp _ ih =>
        obtain ⟨place, hplace⟩ := ih
        exact ⟨0 :: place, freeAt_cons.mpr ⟨hp, _, rfl, hplace⟩⟩
  · rintro ⟨place, h⟩
    induction place generalizing e with
    | nil => exact freeAt_nil.mp h ▸ .parameter
    | cons position place ih =>
        obtain ⟨hp, child, hchild, hplace⟩ := freeAt_cons.mp h
        exact (ih hplace).of_mem_children hp (List.mem_of_getElem? hchild)

theorem mem_freeOfParts {p : Parameter} {e : Expr} :
    p ∈ e.freeOfParts ↔ ∃ place, e.FreeAt p place := by
  rw [← free_eq_freeOfParts, mem_free, occursFree_iff_exists_freeAt]

/-! ## The order of first places -/

/-- Some place of the first kind comes before all places of the second kind, in the order in which
places are visited. -/
def StartsBefore (first second : List Nat → Prop) : Prop :=
  ∃ place, first place ∧ ∀ other, second other → place < other

section Among

variable {e : Expr} {es : List Expr} {p q : Parameter}

/-- A parameter that is not free in the first expression has all its places in later ones. -/
theorem exists_later_of_freeAmong_cons {place : List Nat} (hq : q ∉ e.freeOfParts)
    (h : FreeAmong (e :: es) q place) :
    ∃ position rest, place = (position + 1) :: rest ∧ FreeAmong es q (position :: rest) := by
  match place, h with
  | 0 :: rest, ⟨e', he', hrest⟩ =>
      obtain rfl := Option.some.inj he'
      exact absurd (mem_freeOfParts.mpr ⟨rest, hrest⟩) hq
  | (position + 1) :: rest, h => exact ⟨position, rest, rfl, h⟩

/-- What starts first in the first expression does so among all. -/
theorem StartsBefore.here (h : StartsBefore (e.FreeAt p) (e.FreeAt q)) :
    StartsBefore (FreeAmong (e :: es) p) (FreeAmong (e :: es) q) := by
  obtain ⟨place, hplace, hfirst⟩ := h
  refine ⟨0 :: place, ⟨e, rfl, hplace⟩, fun other hother => ?_⟩
  match other, hother with
  | 0 :: rest, ⟨e', he', hrest⟩ =>
      obtain rfl := Option.some.inj he'
      exact List.cons_lt_cons_iff.mpr (Or.inr ⟨rfl, hfirst rest hrest⟩)
  | (position + 1) :: rest, _ =>
      exact List.cons_lt_cons_iff.mpr (Or.inl (Nat.succ_pos position))

/-- What is free in the first expression starts before what is not. -/
theorem startsBefore_of_mem (hp : p ∈ e.freeOfParts) (hq : q ∉ e.freeOfParts) :
    StartsBefore (FreeAmong (e :: es) p) (FreeAmong (e :: es) q) := by
  obtain ⟨place, hplace⟩ := mem_freeOfParts.mp hp
  refine ⟨0 :: place, ⟨e, rfl, hplace⟩, fun other hother => ?_⟩
  obtain ⟨position, rest, rfl, -⟩ := exists_later_of_freeAmong_cons hq hother
  exact List.cons_lt_cons_iff.mpr (Or.inl (Nat.succ_pos position))

/-- What starts first among the later expressions does so among all, unless the other parameter is
free in the first one. -/
theorem StartsBefore.later (hq : q ∉ e.freeOfParts)
    (h : StartsBefore (FreeAmong es p) (FreeAmong es q)) :
    StartsBefore (FreeAmong (e :: es) p) (FreeAmong (e :: es) q) := by
  obtain ⟨place, hplace, hfirst⟩ := h
  match place, hplace with
  | position :: place, hplace =>
      refine ⟨(position + 1) :: place, hplace, fun other hother => ?_⟩
      obtain ⟨position', rest, rfl, hrest⟩ := exists_later_of_freeAmong_cons hq hother
      have hlt := List.cons_lt_cons_iff.mp (hfirst _ hrest)
      exact List.cons_lt_cons_iff.mpr (hlt.imp Nat.succ_lt_succ (And.imp_left (congrArg Nat.succ)))

end Among

/-- Putting lists of several expressions together keeps first places in order. -/
theorem pairwise_startsBefore_freeAmong {es : List Expr}
    (h : ∀ e ∈ es, e.freeOfParts.Pairwise fun p q => StartsBefore (e.FreeAt p) (e.FreeAt q)) :
    (es.flatMap freeOfParts).eraseDups.Pairwise
      fun p q => StartsBefore (FreeAmong es p) (FreeAmong es q) := by
  induction es with
  | nil => exact List.Pairwise.nil
  | cons e es ih =>
      have ih := ih fun e he => h e (List.mem_cons_of_mem _ he)
      have hnotMem : ∀ q ∈ (es.flatMap freeOfParts).eraseDups.filter (· ∉ e.freeOfParts),
          q ∉ e.freeOfParts := fun q hq => by simpa using (List.mem_filter.mp hq).2
      rw [List.flatMap_cons, eraseDups_append_eq, eraseDups_of_nodup (nodup_freeOfParts e),
        List.pairwise_append]
      refine ⟨(h e List.mem_cons_self).imp StartsBefore.here, ?_, fun p hp q hq => ?_⟩
      · exact (ih.filter _).imp_of_mem fun _ hq hbefore => hbefore.later (hnotMem _ hq)
      · exact startsBefore_of_mem hp (hnotMem q hq)

/-- **First places are in order**: what is listed first starts first. -/
theorem pairwise_startsBefore_freeOfParts (e : Expr) :
    e.freeOfParts.Pairwise fun p q => StartsBefore (e.FreeAt p) (e.FreeAt q) := by
  induction e using children_induction with
  | node e ih =>
      cases hparameter : e.parameter? with
      | some p =>
          cases e with
          | parameter => exact List.pairwise_singleton _ _
          | _ => cases hparameter
      | none =>
          rw [freeOfParts_eq hparameter]
          refine ((pairwise_startsBefore_freeAmong ih).filter _).imp_of_mem ?_
          rintro p q hp - ⟨place, hplace, hfirst⟩
          have hp : p ∉ e.declared := by simpa using (List.mem_filter.mp hp).2
          exact ⟨place, (freeAt_iff hparameter).mpr ⟨hp, hplace⟩,
            fun other hother => hfirst other ((freeAt_iff hparameter).mp hother).2⟩

/-- **The free parameters, exactly.** The walk lists the free parameters of the parts put together,
and from whatever is bound and found already it adds those that are neither. A parameter that stands
free at some place is listed once, and of two parameters that is listed first which first stands free
at an earlier place, whatever lambdas elsewhere declare. -/
theorem free_of_parts_in_order (e : Expr) :
    e.free = e.freeOfParts ∧
    (∀ bound found, collectFree bound found e
      = found ++ (e.freeOfParts.filter (· ∉ bound)).filter (· ∉ found)) ∧
    e.free.Nodup ∧
    (∀ p, p ∈ e.free ↔ ∃ place, e.FreeAt p place) ∧
    e.free.Pairwise fun p q => StartsBefore (e.FreeAt p) (e.FreeAt q) := by
  have hfree := free_eq_freeOfParts e
  refine ⟨hfree, fun bound found => ?_, ?_⟩
  · rw [← hfree]
    exact collectFree_eq e bound found
  · rw [hfree]
    exact ⟨nodup_freeOfParts e, fun _ => mem_freeOfParts, pairwise_startsBefore_freeOfParts e⟩

namespace Shadowed

def flags : Parameter := ⟨0, some "flags", .sequence .boolean⟩

def x : Parameter := ⟨1, some "x", .boolean⟩

def y : Parameter := ⟨2, some "y", .boolean⟩

/-- `flags.Any(x => flags.Any(x => (x && y)))`. -/
def search : Expr :=
  .call 4 (.sequence .any .boolean) [.parameter flags, .lambda 3 [x]
    (.call 2 (.sequence .any .boolean) [.parameter flags, .lambda 1 [x]
      (.binary 0 .andAlso (.parameter x) (.parameter y))])]

/-- `(flags.Any(x => flags.Any(x => (x && y))) && x)`. -/
def both : Expr :=
  .binary 5 .andAlso search (.parameter x)

/-- The search declares `x` twice on one way down and does not leave it free. To its right `x` is free,
and so it is listed there, once, after the `y` of the search. -/
theorem free_both_of_shadowed :
    x ∈ search.binders ∧ x ∉ search.free ∧ both.free = [flags, y, x] ∧ both.FreeAt x [1] ∧
      StartsBefore (both.FreeAt y) (both.FreeAt x) := by
  obtain ⟨hsearch, -⟩ := free_of_parts_in_order search
  obtain ⟨hboth, -, -, -, horder⟩ := free_of_parts_in_order both
  have hbound : search.freeOfParts = [flags, y] := by decide
  have hlist : both.freeOfParts = [flags, y, x] := by decide
  refine ⟨by simp [search], ?_, hboth.trans hlist, ⟨rfl, List.not_mem_nil⟩, ?_⟩
  · rw [hsearch, hbound]
    decide
  · rw [hboth, hlist] at horder
    exact List.rel_of_pairwise_cons horder.of_cons List.mem_cons_self

end Shadowed

end Expr

end ExprTree
