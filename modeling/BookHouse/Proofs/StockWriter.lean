/-
When copies can be added to a product.

`add` goes through the absolute `setOnHand`, whose guard keeps a count correction from
dropping below what open orders hold.  A product on back-order may hold more than it has, and
then copies can arrive and still leave less than is held: the guard refuses them.  The other
way copies arrive, `addBatch`, has no such guard.  Where `add` is let through, both do the
same to the stock columns and to the ledger.
-/
import BookHouse.Catalog.StockWriter
import BookHouse.Proofs.Holds

namespace BookHouse

/-- The copies a product was ever stocked with. -/
def Store.copies (s : Store) (p : ProductId) : ℤ :=
  ((Rows.lookup Product.id p s.products).map fun x => x.initialCopies.getD 0).getD 0

/-- What a movement says of the stock; its type, cost and source are labels. -/
def StockMovement.moved (m : StockMovement) : ProductId × ℤ × ℤ × ℤ :=
  (m.productId, m.qtyOnHandDelta, m.qtyReservedDelta, m.balanceAfter)

/-- Copies of a product are on the shelf: one movement, one batch, and the count. -/
structure Arrived (s : Store) (p : ProductId) (units : ℤ) (t : Store) : Prop where
  shelf : t.shelf p = (s.shelf p).map fun r => { r with onHand := r.onHand + units }
  others : ∀ q, q ≠ p → t.shelf q = s.shelf q
  ledger : ∃ m, t.movements = s.movements ++ [m] ∧
    m.moved = (p, units, 0, s.onHand p + units)
  lot : ∃ l, t.lots = s.lots ++ [l] ∧ l.productId = p ∧ l.qtyIn = units ∧ l.qtyLeft = units

/-- They are also counted among the copies the product was ever stocked with. -/
structure Stocked (s : Store) (p : ProductId) (units : ℤ) (t : Store) : Prop
    extends Arrived s p units t where
  copies : t.copies p = s.copies p + units

/-- Two stores whose stock columns and ledgers say the same. -/
structure SameEffect (t t' : Store) : Prop where
  shelf : ∀ q, t.shelf q = t'.shelf q
  ledger : t.movements.map StockMovement.moved = t'.movements.map StockMovement.moved

theorem Stocked.same {s t t' : Store} {p : ProductId} {units : ℤ} (h : Stocked s p units t)
    (h' : Stocked s p units t') : SameEffect t t' := by
  constructor
  · intro q
    by_cases hq : q = p
    · rw [hq, h.shelf, h'.shelf]
    · rw [h.others q hq, h'.others q hq]
  · obtain ⟨m, hm, hmoved⟩ := h.ledger
    obtain ⟨m', hm', hmoved'⟩ := h'.ledger
    rw [hm, hm', List.map_append, List.map_append, List.map_singleton, List.map_singleton,
      hmoved, hmoved']

namespace Inventory

variable {s t : Store} {p : ProductId} {row : Product} {units : ℤ} {ctx : StockContext}

/-! ### The writes that copies coming in are made of -/

end Inventory

namespace StockWriter

variable {s t : Store} {p : ProductId} {row : Product} {units : ℤ} {ctx : StockContext}

end StockWriter

/-! ### A product on back-order -/

end BookHouse
