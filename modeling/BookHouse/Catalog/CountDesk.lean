/-
Ratings and watch counts: `reviews/application/reviews.service.ts` and
`customers/application/wishlist.service.ts`, statement by statement.

A product caches its rating and how many wishlists it is on; each is recomputed in full by
the transaction that changes a review or a wishlist row.  The three columns are in one row,
so a recompute waits for whoever has the product.  What is checked before a transaction
starts can only refuse it and is left out, and any statement may fail.
-/
import BookHouse.Lib.CachedSum
import BookHouse.Platform.CounterDesk
import BookHouse.Runtime

namespace BookHouse

abbrev ReviewId := ℕ
abbrev WishlistItemId := ℕ

inductive ReviewStatus
  | pending | approved | rejected
deriving DecidableEq, Repr

structure ProductReview where
  productId : ProductId
  customerId : Option CustomerId
  rating : ℕ
  status : ReviewStatus := .pending
deriving DecidableEq, Repr

/-- One product or one bundle. -/
inductive WishTarget
  | product (id : ProductId)
  | bundle (id : BundleId)
deriving DecidableEq, Repr

def WishTarget.productId : WishTarget → Option ProductId
  | product id => some id
  | bundle _ => none

structure WishlistItem where
  customerId : CustomerId
  target : WishTarget
  notifyOnRestock : Bool := true
  notifiedAt : Option Instant := none
deriving DecidableEq, Repr

/-- `rating_avg` and `rating_count`. -/
structure Rating where
  avg : ℚ := 0
  count : ℕ := 0
deriving DecidableEq, Repr

/-- `round(avg(rating)::numeric, 2)` with 0 for no rows, and `count(*)`. -/
def ratingOf (ratings : List ℕ) : Rating where
  avg := if ratings = [] then 0 else round2 ((ratings.sum : ℚ) / ratings.length)
  count := ratings.length

/-- The APPROVED reviews of a product. -/
def reviewFormula : Formula ProductId ProductReview ℕ Rating where
  home r := some r.productId
  value r := if r.status = .approved then some r.rating else none
  sum := ratingOf

/-- The wishlist rows of a product. -/
def wishlistFormula : Formula ProductId WishlistItem Unit ℕ where
  home w := w.target.productId
  value _ := some ()
  sum := List.length

structure CountDesk where
  reviews : Cached TxId ProductId ProductReview Rating
  wishlist : Cached TxId ProductId WishlistItem ℕ

inductive CountOp
  | review (o : RowOp ProductId ProductReview)
  | item (o : RowOp ProductId WishlistItem)
  | commit
  | rollback

@[reducible] def CountOp.Res : CountOp → Type
  | review o => o.Res
  | item o => o.Res
  | commit | rollback => Unit

namespace CountDesk

/-- The row of the product is free: nobody else has written any of its columns. -/
def lock (s : CountDesk) (i : TxId) (p : ProductId) : Bool :=
  s.reviews.cache.free i p && s.wishlist.cache.free i p

def rollback (s : CountDesk) (i : TxId) : CountDesk :=
  { reviews := s.reviews.rollback i, wishlist := s.wishlist.rollback i }

def commit (s : CountDesk) (i : TxId) : CountDesk :=
  { reviews := s.reviews.commit i, wishlist := s.wishlist.commit i }

end CountDesk

namespace CountOp

def perform (i : TxId) (s : CountDesk) : (o : CountOp) → Option (o.Res × CountDesk)
  | review o => (s.reviews.exec reviewFormula (s.lock i) i o).map fun r =>
      (r.1, { s with reviews := r.2 })
  | item o => (s.wishlist.exec wishlistFormula (s.lock i) i o).map fun r =>
      (r.1, { s with wishlist := r.2 })
  | commit => some ((), s.commit i)
  | rollback => some ((), s.rollback i)

/-- A commit that fails has rolled back; the end of a failed transaction cannot fail. -/
def dropped (i : TxId) (s : CountDesk) : CountOp → CountDesk
  | commit => s.rollback i
  | _ => s

/-- A statement, or the fault it ends with. -/
def exec (i : TxId) (o : CountOp) (x : Option Fault) (s : CountDesk) :
    Option (Except Fault o.Res × CountDesk) :=
  match o, x with
  | rollback, _ => some (.ok (), s.rollback i)
  | o, some fault => some (.error fault, o.dropped i s)
  | o, none => (o.perform i s).map fun r => (.ok r.1, r.2)

end CountOp

/-- A service call whose statements others can come between; its thread is its transaction. -/
abbrev CountService := Prog CountOp CountOp.Res Fault

namespace CountService

variable {α : Type}

def ask (o : CountOp) : CountService o.Res := Prog.perform o

/-- `prisma.tx`: what throws is rolled back. -/
def tx (body : CountService α) : CountService α := do
  match ← body.catching with
  | .ok a => do
      ask .commit
      return a
  | .error fault => do
      ask .rollback
      throw fault

/-- `update` and `delete` of a row that is not there throw. -/
def mustFind (found : Bool) : CountService Unit :=
  if found then pure () else throw (.database "P2025" "Record not found")

end CountService

open CountService

namespace ReviewsService

/-- Full recompute (not ±) so moderation flips can never drift the cached rating. -/
def recomputeRating (productId : ProductId) : CountService Unit := do
  ask (.review (.snapshot productId))
  ask (.review .write)

/-- Published right away (logged-in customers only); staff can still reject it later. -/
def create (customerId : CustomerId) (productId : ProductId) (rating : ℕ) : CountService Unit :=
  tx do
    let _ ← ask (.review (.insert
      { productId, customerId := some customerId, rating, status := .approved }))
    recomputeRating productId

def sameStatus (status : ReviewStatus) : Fault :=
  .domain (.rule "review.same_status"
    (if status = .approved then "রিভিউটি আগেই অনুমোদিত" else "রিভিউটি আগেই বাতিল"))

def moderate (id : ReviewId) (status : ReviewStatus) : CountService Unit :=
  tx do
    match ← ask (.review (.get id)) with
    | none => throw (.domain (.notFound "Review" (toString id)))
    | some r =>
      if r.status = status then throw (sameStatus status)
      else do
        let found ← ask (.review (.update id fun row => { row with status }))
        mustFind found
        recomputeRating r.productId

def approve (id : ReviewId) : CountService Unit := moderate id .approved

def reject (id : ReviewId) : CountService Unit := moderate id .rejected

end ReviewsService

namespace WishlistService

def maxItems : ℕ := 100

def syncCount (productId : ProductId) : CountService Unit := do
  ask (.item (.snapshot productId))
  ask (.item .write)

/-- `if (productId) await this.syncCount(tx, productId)` -/
def syncOf : Option ProductId → CountService Unit
  | some productId => syncCount productId
  | none => pure ()

/-- A new row, and the count of its product. -/
def watch (item : WishlistItem) : CountService Unit := do
  let _ ← ask (.item (.insert item))
  syncOf item.target.productId

def add (customerId : CustomerId) (target : WishTarget) (notifyOnRestock : Bool) :
    CountService Unit :=
  tx do
    let item : WishlistItem := { customerId, target, notifyOnRestock }
    match ← ask (.item (.first fun w => w.customerId = customerId && w.target = target)) with
    | some (id, existing) =>
      if existing.notifiedAt.isNone then do
        let found ← ask (.item (.update id fun w => { w with notifyOnRestock }))
        mustFind found
      else do
        -- re-adding after a restock alert starts a fresh watch
        let found ← ask (.item (.delete id))
        mustFind found
        watch item
    | none => do
      let items ← ask (.item (.count fun w => w.customerId = customerId))
      if maxItems ≤ items then
        throw (.domain (.rule "wishlist.limit" s!"সর্বোচ্চ {maxItems}টি পণ্য রাখা যায়"))
      else watch item

def remove (customerId : CustomerId) (id : WishlistItemId) : CountService Unit :=
  tx do
    let w ← ask (.item (.get id))
    match w.filter (·.customerId = customerId) with
    | none => throw (.domain (.notFound "WishlistItem" (toString id)))
    | some w => do
      let found ← ask (.item (.delete id))
      mustFind found
      syncOf w.target.productId

/-- `notifyRestocked` claims a row: `UPDATE … WHERE id AND notified_at IS NULL`. -/
def claim (id : WishlistItemId) (now : Instant) : CountService Unit :=
  tx do
    let _ ← ask (.item (.update id fun w =>
      if w.notifiedAt.isNone then { w with notifiedAt := some now } else w))

end WishlistService

inductive CountRequest
  | create (customerId : CustomerId) (productId : ProductId) (rating : ℕ)
  | approve (id : ReviewId)
  | reject (id : ReviewId)
  | add (customerId : CustomerId) (target : WishTarget) (notifyOnRestock : Bool)
  | remove (customerId : CustomerId) (id : WishlistItemId)
  | claim (id : WishlistItemId) (now : Instant)
deriving DecidableEq, Repr

def CountRequest.body : CountRequest → CountService Unit
  | create customerId productId rating => ReviewsService.create customerId productId rating
  | approve id => ReviewsService.approve id
  | reject id => ReviewsService.reject id
  | add customerId target notifyOnRestock => WishlistService.add customerId target notifyOnRestock
  | remove customerId id => WishlistService.remove customerId id
  | claim id now => WishlistService.claim id now

abbrev CountWorld := Prog.World CountOp CountOp.Res Fault Unit CountDesk

def countStep : CountWorld → Prog.Act CountRequest (Option Fault) → Option CountWorld :=
  Prog.World.step CountOp.exec CountRequest.body

end BookHouse
