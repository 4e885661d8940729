/-
# Splicing three lambdas

Of three lambdas that follow each other the first two may be spliced first or the last two. On the one
side the body of the first lambda is put into the second one and copied with it, on the other side it
is put into the copies that stand in the third one already.
-/
import ExprTree.Proofs.Commutation

namespace ExprTree

namespace Lambda

section Splice

variable {session session' : Session} {a b c left right : Lambda}

/-- **Splicing is associative.** Let the last of three lambdas be closed, bind its parameter only once
and bind none that the second one declares. If the three can be spliced from the left and from the
right, then both ways give the same parameters and, up to the serials of composite nodes, the same
body. So the results print the same, and on any arguments they give the same value or both fail, after
the same native calls. Nothing is asked of what else the three lambdas bind or leave free. -/
theorem splice_assoc (hclosed : c.isClosed = true) (hown : c.params.Disjoint c.body.binders)
    (hapart : b.params.Disjoint (c.params ++ c.body.binders))
    (hleft : (Build.runIn (do (← a.splice b).splice c) session).1 = .ok left)
    (hright : (Build.runIn (do a.splice (← b.splice c)) session').1 = .ok right) :
    left.params = right.params ∧ left.body.shape = right.body.shape ∧ left.Alike right := by
  obtain ⟨ab, middle, hab, hleft⟩ := Build.runIn_bind_ok.mp (Prod.ext hleft rfl)
  obtain ⟨bc, middle', hbc, hright⟩ := Build.runIn_bind_ok.mp (Prod.ext hright rfl)
  obtain ⟨x, hx⟩ := Build.exists_param_of_runIn_splice hab
  obtain ⟨y, hy⟩ := Build.exists_param_of_runIn_splice hbc
  obtain ⟨habParams, habShape⟩ := Build.shape_of_runIn_splice hx hab
  obtain ⟨hleftParams, hleftShape⟩ := Build.shape_of_runIn_splice hy hleft
  obtain ⟨hbcParams, hbcShape⟩ := Build.shape_of_runIn_splice hy hbc
  obtain ⟨hrightParams, hrightShape⟩ := Build.shape_of_runIn_splice (hbcParams.trans hx) hright
  -- The parameter of the second lambda stands in its own body only.
  have hxc : x ∉ c.body.shape.parameters := by
    rw [Expr.parameters_shape]
    refine notMem_parameters_of_isClosed hclosed fun hmem => ?_
    exact hapart (hx ▸ List.mem_singleton_self x) hmem
  have hyc : y ∉ c.body.shape.binders := by
    rw [Expr.binders_shape]
    exact fun hmem => hown (hy ▸ List.mem_singleton_self y) hmem
  have hparams : left.params = right.params := by
    rw [hleftParams, habParams, hrightParams]
  have hshape : left.body.shape = right.body.shape := by
    rw [hleftShape, habShape, hrightShape, hbcShape, Expr.fill_fill_replacing hyc hxc]
  exact ⟨hparams, hshape, alike_of_shape_eq hparams hshape⟩

end Splice

namespace Powers

def x : Parameter := ⟨0, some "x", .int32⟩

def n : Parameter := ⟨1, some "n", .int32⟩

def m : Parameter := ⟨2, some "m", .int32⟩

/-- `x => -x`. -/
def negated : Lambda := ⟨[x], .unary 0 .negate (.parameter x)⟩

/-- `n => (n + n)`. -/
def doubled : Lambda := ⟨[n], .binary 1 .add (.parameter n) (.parameter n)⟩

/-- `m => (m * m)`. -/
def squared : Lambda := ⟨[m], .binary 2 .mul (.parameter m) (.parameter m)⟩

/-- `(-x + -x)`. -/
def sum (serial : Nat) : Expr := .binary serial .add negated.body negated.body

/-- `x => ((-x + -x) * (-x + -x))`, over the two sums given. -/
def spliced (serial left right : Nat) : Lambda :=
  ⟨[x], .binary serial .mul (sum left) (sum right)⟩

/-- Changing the sign, doubling and squaring may be spliced from the left and from the right. From the
left the two sums are one node, from the right they are two. -/
theorem splice_squared_assoc :
    (spliced 4 3 3).params = (spliced 6 4 5).params ∧
    (spliced 4 3 3).body.shape = (spliced 6 4 5).body.shape ∧
    (spliced 4 3 3).Alike (spliced 6 4 5) := by
  have hown : squared.params.Disjoint squared.body.binders := List.disjoint_nil_right [m]
  have hapart : doubled.params.Disjoint (squared.params ++ squared.body.binders) :=
    List.disjoint_singleton.mpr (by decide)
  have hleft : (Build.runIn (do (← negated.splice doubled).splice squared)
      { serials := 3, parameters := 3 }).1 = .ok (spliced 4 3 3) := rfl
  have hright : (Build.runIn (do negated.splice (← doubled.splice squared))
      { serials := 3, parameters := 3 }).1 = .ok (spliced 6 4 5) := rfl
  exact splice_assoc rfl hown hapart hleft hright

end Powers

end Lambda

end ExprTree
