/-
Cached ratings and watch counts.

A recompute reads the snapshot its UPDATE started with, also when it then waits for the
product.  A transaction that commits in between with a change to the same product is
missed, and the cache drifts (`ratings_drift`).  Where that does not happen every cached
value is right in every state (`cached_counts_exact`): the services keep the contract of
`Lib/CachedSum`, which is that a transaction recomputes what it changes.
-/
import BookHouse.Catalog.CountDesk

namespace BookHouse

open Prog (Contract)
open Cached CountService

namespace CountDesk

variable {s s' t u : CountDesk} {i j : TxId}

/-- Both tables are well kept. -/
structure Wf (s : CountDesk) : Prop where
  reviews : Cached.Wf reviewFormula s.reviews
  wishlist : Cached.Wf wishlistFormula s.wishlist

/-- What the others leave of the work of transaction `i`. -/
structure Undisturbed (i : TxId) (s t : CountDesk) : Prop where
  reviews : Cached.Undisturbed i s.reviews t.reviews
  wishlist : Cached.Undisturbed i s.wishlist t.wishlist

/-- Transaction `i` may commit: it recomputed what it changed. -/
structure Ready (i : TxId) (s : CountDesk) : Prop where
  reviewsWritten : Cached.Written reviewFormula i s.reviews
  reviewsCovered : Covers reviewFormula i s.reviews
  wishlistWritten : Cached.Written wishlistFormula i s.wishlist
  wishlistCovered : Covers wishlistFormula i s.wishlist

/-- Transaction `i` has not started. -/
structure Untouched (i : TxId) (s : CountDesk) : Prop where
  reviews : Cached.Untouched i s.reviews
  wishlist : Cached.Untouched i s.wishlist

/-- Every cached value is the sum over the committed rows. -/
structure Fresh (s : CountDesk) : Prop where
  reviews : Cached.Fresh reviewFormula s.reviews
  wishlist : Cached.Fresh wishlistFormula s.wishlist

/-- The rows of the product that `i` has recomputed are still those of its snapshot. -/
def settled (i : TxId) (s : CountDesk) : Bool :=
  Cached.settled reviewFormula i s.reviews && Cached.settled wishlistFormula i s.wishlist

theorem Undisturbed.refl (i : TxId) (s : CountDesk) : Undisturbed i s s :=
  ⟨.refl i s.reviews, .refl i s.wishlist⟩

theorem Undisturbed.trans (h : Undisturbed i s t) (h' : Undisturbed i t u) : Undisturbed i s u :=
  ⟨h.reviews.trans h'.reviews, h.wishlist.trans h'.wishlist⟩

theorem Ready.stable (h : Ready i s) (hu : Undisturbed i s t) : Ready i t :=
  ⟨h.reviewsWritten.stable hu.reviews, h.reviewsCovered.stable hu.reviews,
    h.wishlistWritten.stable hu.wishlist, h.wishlistCovered.stable hu.wishlist⟩

theorem Untouched.stable (h : Untouched i s) (hu : Undisturbed i s t) : Untouched i t :=
  ⟨h.reviews.stable hu.reviews, h.wishlist.stable hu.wishlist⟩

theorem Untouched.ready (h : Untouched i s) : Ready i s :=
  ⟨h.reviews.2.written, h.reviews.covers, h.wishlist.2.written, h.wishlist.covers⟩

theorem lock_reviews {p : ProductId} (h : s.lock i p = true) : s.reviews.cache.free i p :=
  (Bool.and_eq_true_iff.mp h).1

theorem lock_wishlist {p : ProductId} (h : s.lock i p = true) : s.wishlist.cache.free i p :=
  (Bool.and_eq_true_iff.mp h).2

end CountDesk

/-! ### One statement on one table -/

section statement

variable {π ρ β α : Type} [DecidableEq π] {F : Formula π ρ β α} {s s' : Cached TxId π ρ α}
  {lock : π → Bool} {i j : TxId}

/-- An update leaves a row with its owner. -/
def keepsHome (F : Formula π ρ β α) : RowOp π ρ → Prop
  | .update _ f => ∀ r, F.home (f r) = F.home r
  | _ => True

theorem exec_wf {o : RowOp π ρ} {r : o.Res} (hw : Cached.Wf F s) (ho : keepsHome F o)
    (hlock : ∀ p, lock p = true → s.cache.free i p) (h : s.exec F lock i o = some (r, s')) :
    Cached.Wf F s' := by
  cases o with
  | get k => exact (Prod.mk.inj (Option.some.inj h)).2 ▸ hw
  | first c => exact (Prod.mk.inj (Option.some.inj h)).2 ▸ hw
  | count c => exact (Prod.mk.inj (Option.some.inj h)).2 ▸ hw
  | insert row => exact (Prod.mk.inj (Option.some.inj h)).2 ▸ inserted_wf hw
  | update k f =>
      refine writeRow_wf hw (fun r r' hr => ?_) h
      rw [← Option.some.inj hr]
      exact ho r
  | delete k => exact writeRow_wf hw (fun r r' hr => by cases hr) h
  | snapshot p => exact (Prod.mk.inj (Option.some.inj h)).2 ▸ snapped_wf hw
  | write =>
      obtain ⟨u, hu, heq⟩ := Option.map_eq_some_iff.mp h
      exact (Prod.mk.inj heq).2 ▸ writeCache_wf hw hlock hu

theorem exec_undisturbed {o : RowOp π ρ} {r : o.Res} (hw : Cached.Wf F s)
    (hlock : ∀ p, lock p = true → s.cache.free i p) (h : s.exec F lock i o = some (r, s'))
    (hj : j ≠ i) : Cached.Undisturbed j s s' := by
  cases o with
  | get k => exact (Prod.mk.inj (Option.some.inj h)).2 ▸ .refl j s
  | first c => exact (Prod.mk.inj (Option.some.inj h)).2 ▸ .refl j s
  | count c => exact (Prod.mk.inj (Option.some.inj h)).2 ▸ .refl j s
  | insert row => exact (Prod.mk.inj (Option.some.inj h)).2 ▸ inserted_undisturbed hw hj
  | update k f => exact writeRow_undisturbed h hj
  | delete k => exact writeRow_undisturbed h hj
  | snapshot p => exact (Prod.mk.inj (Option.some.inj h)).2 ▸ snapped_undisturbed hj
  | write =>
      obtain ⟨u, hu, heq⟩ := Option.map_eq_some_iff.mp h
      exact (Prod.mk.inj heq).2 ▸ writeCache_undisturbed hlock hu hj

/-- Only a commit changes what is committed. -/
theorem exec_committed {o : RowOp π ρ} {r : o.Res} (h : s.exec F lock i o = some (r, s')) :
    s'.rows.committed = s.rows.committed ∧ s'.cache.committed = s.cache.committed := by
  have hrow : ∀ {k : ℕ} {f : ρ → Option ρ} {found : Bool},
      s.writeRow i k f = some (found, s') →
        s'.rows.committed = s.rows.committed ∧ s'.cache.committed = s.cache.committed := by
    intro k f found h
    rcases writeRow_ok h with rfl | ⟨r, -, -, rfl⟩
    · exact ⟨rfl, rfl⟩
    · exact ⟨rfl, rfl⟩
  cases o with
  | update k f => exact hrow h
  | delete k => exact hrow h
  | write =>
      obtain ⟨u, hu, heq⟩ := Option.map_eq_some_iff.mp h
      obtain rfl := (Prod.mk.inj heq).2
      obtain ⟨p, rows, -, -, ⟨-, rfl⟩ | ⟨-, rfl⟩⟩ := writeCache_ok hu
      · exact ⟨rfl, rfl⟩
      · exact ⟨rfl, rfl⟩
  | _ =>
      obtain rfl := (Prod.mk.inj (Option.some.inj h)).2
      exact ⟨rfl, rfl⟩

end statement

/-! ### The contract -/

namespace CountOp

open CountDesk

variable {s t : CountDesk} {i j : TxId} {x : Option Fault}

/-- What a transaction has to know before a statement. -/
def pre (i : TxId) : CountOp → CountDesk → Prop
  | review o, _ => keepsHome reviewFormula o
  | item o, _ => keepsHome wishlistFormula o
  | commit, s => Ready i s
  | rollback, _ => True

/-- Without a fault an operation is performed. -/
theorem exec_none (o : CountOp) :
    o.exec i none s = (o.perform i s).map fun r => (.ok r.1, r.2) := by
  cases o <;> rfl

/-- What an operation that answered did. -/
theorem exec_ok {o : CountOp} {r : o.Res} (h : o.exec i x s = some (.ok r, t)) :
    o.perform i s = some (r, t) := by
  have hnone : o.exec i none s = some (.ok r, t) := by
    cases x with
    | none => exact h
    | some fault =>
        cases o with
        | rollback => exact h
        | _ => simp [exec] at h
  rw [exec_none] at hnone
  obtain ⟨⟨a, u⟩, ha, heq⟩ := Option.map_eq_some_iff.mp hnone
  obtain ⟨hr, rfl⟩ := Prod.mk.inj heq
  obtain rfl := Except.ok.inj hr
  exact ha

/-- What an operation that threw left. -/
theorem exec_error {o : CountOp} {fault : Fault} (h : o.exec i x s = some (.error fault, t)) :
    t = s ∨ t = s.rollback i := by
  cases x with
  | none =>
      rw [exec_none] at h
      obtain ⟨a, -, heq⟩ := Option.map_eq_some_iff.mp h
      cases (Prod.mk.inj heq).1
  | some f =>
      cases o with
      | rollback => simp [exec] at h
      | commit => exact .inr (Prod.mk.inj (Option.some.inj h)).2.symm
      | review o => exact .inl (Prod.mk.inj (Option.some.inj h)).2.symm
      | item o => exact .inl (Prod.mk.inj (Option.some.inj h)).2.symm

theorem perform_ok {o : CountOp} {r : o.Res} (hw : Wf s) (hpre : o.pre i s)
    (h : o.perform i s = some (r, t)) : Wf t ∧ ∀ j, j ≠ i → CountDesk.Undisturbed j s t := by
  cases o with
  | review o =>
      obtain ⟨⟨a, c⟩, hexec, heq⟩ := Option.map_eq_some_iff.mp h
      obtain ⟨-, rfl⟩ := Prod.mk.inj heq
      have hlock : ∀ p, s.lock i p = true → s.reviews.cache.free i p := fun p => lock_reviews
      exact ⟨⟨exec_wf hw.reviews hpre hlock hexec, hw.wishlist⟩, fun j hj =>
        ⟨exec_undisturbed hw.reviews hlock hexec hj, .refl j _⟩⟩
  | item o =>
      obtain ⟨⟨a, c⟩, hexec, heq⟩ := Option.map_eq_some_iff.mp h
      obtain ⟨-, rfl⟩ := Prod.mk.inj heq
      have hlock : ∀ p, s.lock i p = true → s.wishlist.cache.free i p := fun p => lock_wishlist
      exact ⟨⟨hw.reviews, exec_wf hw.wishlist hpre hlock hexec⟩, fun j hj =>
        ⟨.refl j _, exec_undisturbed hw.wishlist hlock hexec hj⟩⟩
  | commit =>
      obtain rfl := (Prod.mk.inj (Option.some.inj h)).2
      exact ⟨⟨commit_wf hw.reviews, commit_wf hw.wishlist⟩, fun j hj =>
        ⟨commit_undisturbed hw.reviews hj, commit_undisturbed hw.wishlist hj⟩⟩
  | rollback =>
      obtain rfl := (Prod.mk.inj (Option.some.inj h)).2
      exact ⟨⟨rollback_wf hw.reviews, rollback_wf hw.wishlist⟩, fun j hj =>
        ⟨rollback_undisturbed hj, rollback_undisturbed hj⟩⟩

theorem exec_keeps {o : CountOp} {r : Except Fault o.Res} (hw : Wf s) (hpre : o.pre i s)
    (h : o.exec i x s = some (r, t)) : Wf t ∧ ∀ j, j ≠ i → CountDesk.Undisturbed j s t := by
  cases r with
  | ok a => exact perform_ok hw hpre (exec_ok h)
  | error fault =>
      rcases exec_error h with rfl | rfl
      · exact ⟨hw, fun j _ => .refl j t⟩
      · exact perform_ok (o := .rollback) hw trivial rfl

end CountOp

def countContract : Contract CountOp CountOp.Res Fault CountDesk (Option Fault) where
  exec := CountOp.exec
  Inv := CountDesk.Wf
  Rely := CountDesk.Undisturbed
  pre := CountOp.pre
  rely_refl := CountDesk.Undisturbed.refl
  rely_trans := CountDesk.Undisturbed.trans
  pre_stable {i o s t} hr h := by
    cases o with
    | commit => exact CountDesk.Ready.stable h hr
    | _ => exact h
  fresh := CountDesk.Untouched
  fresh_stable hr h := h.stable hr
  step hw hpre h := CountOp.exec_keeps hw hpre h

/-! ### The services keep it -/

namespace CountService

open CountDesk

variable {s t : CountDesk} {i : TxId} {α : Type}

/-- What the body of a transaction has to end with. -/
abbrev Commits (i : TxId) : Except Fault α → CountDesk → Prop :=
  Contract.Ends (fun _ => Ready i) fun _ => True

theorem obeys_tx {body : CountService α} (h : countContract.Obeys i (Commits i) body s) :
    countContract.Obeys i (fun _ _ => True) (tx body) s := by
  refine Contract.Obeys.bind (Contract.Obeys.catching (Contract.Obeys.mono (fun r u hr => ?_) h))
  cases r with
  | ok a =>
      exact Contract.Obeys.perform (o := CountOp.commit) hr
        (fun _ _ _ _ _ _ _ _ _ => trivial) fun _ _ _ _ _ _ _ _ _ => trivial
  | error fault =>
      exact Contract.Obeys.perform (o := CountOp.rollback) trivial
        (fun _ _ _ _ _ _ _ _ _ => trivial) fun _ _ _ _ _ _ _ _ _ => trivial

/-- A statement, and the rest of the transaction where it answered. -/
theorem obeys_ask {o : CountOp} {f : o.Res → CountService α} (hpre : ∀ u, o.pre i u)
    (hok : ∀ u a t, CountDesk.Undisturbed i s u → Wf u → o.perform i u = some (a, t) →
      countContract.Obeys i (Commits i) (f a) t) :
    countContract.Obeys i (Commits i) (ask o >>= f) s :=
  Contract.Obeys.perform (hpre s)
    (fun u _ a t hu hw he => hok u a t hu hw (CountOp.exec_ok he))
    fun _ _ _ _ _ _ _ _ _ => trivial

theorem obeys_throw {fault : Fault} :
    countContract.Obeys i (Commits i) (throw fault : CountService α) s :=
  fun _ _ => trivial

theorem obeys_return {a : α} (h : Ready i s) :
    countContract.Obeys i (Commits i) (pure a : CountService α) s :=
  fun _ hu => h.stable hu

theorem obeys_mustFind {found : Bool} {f : Unit → CountService α}
    (h : countContract.Obeys i (Commits i) (f ()) s) :
    countContract.Obeys i (Commits i) (mustFind found >>= f) s := by
  cases found with
  | false => exact obeys_throw
  | true => exact h

/-- A statement that ends the transaction. -/
theorem obeys_last {o : CountOp} (hpre : ∀ u, o.pre i u)
    (hok : ∀ u a t, CountDesk.Undisturbed i s u → Wf u → o.perform i u = some (a, t) → Ready i t) :
    countContract.Obeys i (Commits i) (ask o) s := by
  refine ⟨hpre s, fun u x r t hu hw he => ?_⟩
  cases r with
  | ok a => exact fun v hv => (hok u a t hu hw (CountOp.exec_ok he)).stable hv
  | error fault => exact fun _ _ => trivial

/-! #### Reviews -/

/-- Transaction `i` has changed reviews of `p` at most, and recomputed nothing yet. -/
structure Reviewing (i : TxId) (p : ProductId) (s : CountDesk) : Prop where
  only : Only i (some p) s.reviews
  unwritten : Unwritten i s.reviews
  wishlist : Cached.Untouched i s.wishlist

theorem Reviewing.stable {p : ProductId} (h : Reviewing i p s) (hu : CountDesk.Undisturbed i s t) :
    Reviewing i p t :=
  ⟨h.only.stable hu.reviews, h.unwritten.stable hu.reviews, h.wishlist.stable hu.wishlist⟩

theorem Reviewing.start (h : CountDesk.Untouched i s) (p : ProductId) :
    Reviewing i p s :=
  ⟨h.reviews.only _, h.reviews.2, h.wishlist⟩

theorem obeys_recomputeRating {p : ProductId} (h : Reviewing i p s) :
    countContract.Obeys i (Commits i) (ReviewsService.recomputeRating p) s := by
  refine obeys_ask (fun _ => trivial) fun u _ t hu _ he => ?_
  obtain rfl := (Prod.mk.inj (Option.some.inj he)).2
  refine obeys_last (fun _ => trivial) fun v _ w hv hw he => ?_
  obtain ⟨⟨_, c⟩, hexec, heq⟩ := Option.map_eq_some_iff.mp he
  obtain ⟨-, rfl⟩ := Prod.mk.inj heq
  obtain ⟨c, hwrite, heq⟩ := Option.map_eq_some_iff.mp hexec
  obtain ⟨-, rfl⟩ := Prod.mk.inj heq
  have hu' := h.stable hu
  have hsnap := hv.reviews.snap.trans (snap_snapped (s := u.reviews) (t := i) (p := p))
  have hunwritten : Unwritten i v.reviews := Unwritten.stable hu'.unwritten.snapped hv.reviews
  have honly : Only i (some p) v.reviews := Only.stable hu'.only.snapped hv.reviews
  have hother := hu'.wishlist.stable hv.wishlist
  exact ⟨writeCache_written hw.reviews hunwritten hwrite,
    writeCache_covers hw.reviews hunwritten honly hsnap (fun q => lock_reviews) hwrite,
    hother.2.written, hother.covers⟩

theorem obeys_create {customerId : CustomerId} {productId : ProductId} {rating : ℕ}
    (h : CountDesk.Untouched i s) : countContract.Obeys i (fun _ _ => True)
      (ReviewsService.create customerId productId rating) s := by
  refine obeys_tx (obeys_ask (fun _ => trivial) fun u _ t hu _ he => ?_)
  obtain ⟨-, rfl⟩ := Prod.mk.inj (Option.some.inj he)
  have hstart := Reviewing.start (h.stable hu) productId
  exact obeys_recomputeRating ⟨inserted_only hstart.only, hstart.unwritten, hstart.wishlist⟩

theorem obeys_moderate {id : ReviewId} {status : ReviewStatus} (h : CountDesk.Untouched i s) :
    countContract.Obeys i (fun _ _ => True) (ReviewsService.moderate id status) s := by
  refine obeys_tx (obeys_ask (fun _ => trivial) fun u row t hu hw he => ?_)
  obtain ⟨hrow, rfl⟩ := Prod.mk.inj (Option.some.inj he)
  have hread : u.reviews.rows.seen i id = row := hrow
  cases row with
  | none => exact obeys_throw
  | some r =>
      show countContract.Obeys i _ (if _ then _ else _) _
      split
      · exact obeys_throw
      have hgiven := hw.reviews.given_of_seen hread
      refine obeys_ask (fun _ _ => rfl) fun v found w hv hw' he => ?_
      obtain ⟨⟨_, c⟩, hexec, heq⟩ := Option.map_eq_some_iff.mp he
      obtain ⟨-, rfl⟩ := Prod.mk.inj heq
      refine obeys_mustFind (obeys_recomputeRating ?_)
      have hstart := Reviewing.start ((h.stable hu).stable hv) r.productId
      refine ⟨writeRow_only hstart.only (hgiven.stable hv.reviews) hexec, ?_, hstart.wishlist⟩
      intro p
      show c.cache.own i p = none
      rw [writeRow_cache hexec]
      exact hstart.unwritten p

/-! #### The wishlist -/

/-- Transaction `i` has changed wishlist rows of `h` at most, and recomputed nothing yet. -/
structure Watching (i : TxId) (h : Option ProductId) (s : CountDesk) : Prop where
  only : Only i h s.wishlist
  unwritten : Unwritten i s.wishlist
  reviews : Cached.Untouched i s.reviews

theorem Watching.stable {h : Option ProductId} (hs : Watching i h s)
    (hu : CountDesk.Undisturbed i s t) :
    Watching i h t :=
  ⟨hs.only.stable hu.wishlist, hs.unwritten.stable hu.wishlist, hs.reviews.stable hu.reviews⟩

theorem Watching.start (h : CountDesk.Untouched i s) (p : Option ProductId) :
    Watching i p s :=
  ⟨h.wishlist.only _, h.wishlist.2, h.reviews⟩

theorem obeys_syncCount {p : ProductId} (h : Watching i (some p) s) :
    countContract.Obeys i (Commits i) (WishlistService.syncCount p) s := by
  refine obeys_ask (fun _ => trivial) fun u _ t hu _ he => ?_
  obtain rfl := (Prod.mk.inj (Option.some.inj he)).2
  refine obeys_last (fun _ => trivial) fun v _ w hv hw he => ?_
  obtain ⟨⟨_, c⟩, hexec, heq⟩ := Option.map_eq_some_iff.mp he
  obtain ⟨-, rfl⟩ := Prod.mk.inj heq
  obtain ⟨c, hwrite, heq⟩ := Option.map_eq_some_iff.mp hexec
  obtain ⟨-, rfl⟩ := Prod.mk.inj heq
  have hu' := h.stable hu
  have hsnap := hv.wishlist.snap.trans (snap_snapped (s := u.wishlist) (t := i) (p := p))
  have hunwritten : Unwritten i v.wishlist := Unwritten.stable hu'.unwritten.snapped hv.wishlist
  have honly : Only i (some p) v.wishlist := Only.stable hu'.only.snapped hv.wishlist
  have hother := hu'.reviews.stable hv.reviews
  exact ⟨hother.2.written, hother.covers, writeCache_written hw.wishlist hunwritten hwrite,
    writeCache_covers hw.wishlist hunwritten honly hsnap (fun q => lock_wishlist) hwrite⟩

/-- The last step of a change: the count of the product, if it is about one. -/
theorem obeys_sync {h : Option ProductId} (hs : Watching i h s) (hw : Wf s) :
    countContract.Obeys i (Commits i) (WishlistService.syncOf h) s := by
  cases h with
  | some p => exact obeys_syncCount hs
  | none =>
      have hcovers : Covers wishlistFormula i s.wishlist :=
        hs.only.covers hw.wishlist fun p hp => by cases hp
      exact obeys_return ⟨hs.reviews.2.written, hs.reviews.covers, hs.unwritten.written, hcovers⟩

theorem obeys_watch {item : WishlistItem} (h : Watching i item.target.productId s) :
    countContract.Obeys i (Commits i) (WishlistService.watch item) s := by
  refine obeys_ask (fun _ => trivial) fun u _ t hu hw he => ?_
  have hw' := (CountOp.perform_ok (o := .item (.insert item)) hw trivial he).1
  obtain ⟨-, rfl⟩ := Prod.mk.inj (Option.some.inj he)
  have hstart := h.stable hu
  exact obeys_sync ⟨inserted_only hstart.only, hstart.unwritten, hstart.reviews⟩ hw'

/-- Deleting a row of `h`, and what follows. -/
theorem obeys_delete {h : Option ProductId} {id : WishlistItemId} {next : CountService Unit}
    (hs : Watching i h s) (hgiven : Given id h s.wishlist)
    (hnext : ∀ t, Watching i h t → Wf t → countContract.Obeys i (Commits i) next t) :
    countContract.Obeys i (Commits i)
      (ask (.item (.delete id)) >>= fun found => mustFind found >>= fun _ => next) s := by
  refine obeys_ask (fun _ => trivial) fun u found t hu hw he => ?_
  have hw' := (CountOp.perform_ok (o := .item (.delete id)) hw trivial he).1
  obtain ⟨⟨_, c⟩, hexec, heq⟩ := Option.map_eq_some_iff.mp he
  obtain ⟨-, rfl⟩ := Prod.mk.inj heq
  have hstart := hs.stable hu
  refine obeys_mustFind (hnext _ ⟨writeRow_only hstart.only (hgiven.stable hu.wishlist) hexec, ?_,
    hstart.reviews⟩ hw')
  intro p
  show c.cache.own i p = none
  rw [writeRow_cache hexec]
  exact hstart.unwritten p

/-- An update that counts the same needs no recompute. -/
theorem update_ready {id : WishlistItemId} {f : WishlistItem → WishlistItem} {found : Bool}
    (h : CountDesk.Untouched i s) (hf : ∀ w, (f w).target = w.target)
    (he : (CountOp.item (.update id f)).perform i s = some (found, t)) : Ready i t := by
  obtain ⟨⟨_, c⟩, hexec, heq⟩ := Option.map_eq_some_iff.mp he
  obtain ⟨-, rfl⟩ := Prod.mk.inj heq
  have hpart : ∀ p w, wishlistFormula.part p (f w) = wishlistFormula.part p w := by
    intro p w
    have hhome : wishlistFormula.home (f w) = wishlistFormula.home w :=
      congrArg WishTarget.productId (hf w)
    rw [Formula.part, hhome]
    rfl
  have hunwritten : Unwritten i c := by
    intro p
    rw [writeRow_cache hexec]
    exact h.wishlist.2 p
  exact ⟨h.reviews.2.written, h.reviews.covers, hunwritten.written,
    writeRow_covers h.wishlist hpart hexec⟩

theorem first_seen {π ρ α : Type} {s : Cached TxId π ρ α} {c : ρ → Bool} {k : ℕ} {r : ρ}
    (h : s.first i c = some (k, r)) : s.rows.seen i k = some r ∧ c r = true := by
  obtain ⟨k', -, hk⟩ := List.exists_of_findSome?_eq_some h
  obtain ⟨r', hr, heq⟩ := Option.map_eq_some_iff.mp hk
  obtain ⟨rfl, rfl⟩ := Prod.mk.inj heq
  exact Option.filter_eq_some_iff.mp hr

theorem obeys_add {customerId : CustomerId} {target : WishTarget} {notifyOnRestock : Bool}
    (h : CountDesk.Untouched i s) : countContract.Obeys i (fun _ _ => True)
      (WishlistService.add customerId target notifyOnRestock) s := by
  refine obeys_tx (obeys_ask (fun _ => trivial) fun u existing t hu hw he => ?_)
  obtain ⟨hfirst, rfl⟩ := Prod.mk.inj (Option.some.inj he)
  have hstart := h.stable hu
  cases existing with
  | none =>
      refine obeys_ask (fun _ => trivial) fun v items t hv hw' he => ?_
      obtain ⟨-, rfl⟩ := Prod.mk.inj (Option.some.inj he)
      show countContract.Obeys i _ (if _ then _ else _) _
      split
      · exact obeys_throw
      · exact obeys_watch (Watching.start (hstart.stable hv) _)
  | some found =>
      obtain ⟨id, w⟩ := found
      show countContract.Obeys i _ (if _ then _ else _) _
      split
      · refine obeys_ask (fun _ _ => rfl) fun v ok t hv hw' he => ?_
        have hready := update_ready (f := fun w => { w with notifyOnRestock })
          (hstart.stable hv) (fun _ => rfl) he
        cases ok with
        | false => exact obeys_throw
        | true => exact obeys_return hready
      · obtain ⟨hseen, hfound⟩ := first_seen hfirst
        have htarget : w.target = target := by
          simp only [Bool.and_eq_true, decide_eq_true_eq] at hfound
          exact hfound.2
        refine obeys_delete (Watching.start hstart target.productId) ?_ fun v hv _ => obeys_watch hv
        rw [← htarget]
        exact hw.wishlist.given_of_seen hseen

theorem obeys_remove {customerId : CustomerId} {id : WishlistItemId}
    (h : CountDesk.Untouched i s) : countContract.Obeys i (fun _ _ => True)
      (WishlistService.remove customerId id) s := by
  refine obeys_tx (obeys_ask (fun _ => trivial) fun u row t hu hw he => ?_)
  obtain ⟨hrow, rfl⟩ := Prod.mk.inj (Option.some.inj he)
  have hread : u.wishlist.rows.seen i id = row := hrow
  cases hf : row.filter (·.customerId = customerId) with
  | none => exact obeys_throw
  | some w =>
      rw [(Option.filter_eq_some_iff.mp hf).1] at hread
      refine obeys_delete (Watching.start (h.stable hu) w.target.productId)
        (hw.wishlist.given_of_seen hread) fun t ht hw' => obeys_sync ht hw'

theorem obeys_claim {id : WishlistItemId} {now : Instant} (h : CountDesk.Untouched i s) :
    countContract.Obeys i (fun _ _ => True) (WishlistService.claim id now) s := by
  have hf : ∀ w : WishlistItem,
      (if w.notifiedAt.isNone then { w with notifiedAt := some now } else w).target = w.target := by
    intro w
    split
    · rfl
    · rfl
  refine obeys_tx (obeys_ask (fun _ w => ?_) fun u found t hu hw he => ?_)
  · exact congrArg WishTarget.productId (hf w)
  · exact obeys_return (update_ready (h.stable hu) hf he)

theorem obeys_request (request : CountRequest) (h : CountDesk.Untouched i s) :
    countContract.Obeys i (fun _ _ => True) request.body s := by
  cases request with
  | create customerId productId rating => exact obeys_create h
  | approve id => exact obeys_moderate h
  | reject id => exact obeys_moderate h
  | add customerId target notifyOnRestock => exact obeys_add h
  | remove customerId id => exact obeys_remove h
  | claim id now => exact obeys_claim h

end CountService

/-! ### Runs -/

namespace CountDesk

variable {s t : CountDesk}

/-- A database whose cached values are right, and nobody at work. -/
structure Opening (s : CountDesk) : Prop where
  wf : Wf s
  fresh : Fresh s
  idle : ∀ i, Untouched i s

/-- Nobody commits a change to a product between the snapshot of a recompute of that product
and the commit of its transaction. -/
def undisputed (i : TxId) (o : CountOp) (_ : Option Fault) (s : CountDesk) : Prop :=
  match o with
  | .commit => s.settled i = true
  | _ => True

theorem rollback_fresh {i : TxId} (h : Fresh s) : Fresh (s.rollback i) := ⟨h.reviews, h.wishlist⟩

/-- One operation: only a commit changes what is committed. -/
theorem exec_fresh {i : TxId} {o : CountOp} {x : Option Fault} {r : Except Fault o.Res}
    (hw : Wf s) (hpre : o.pre i s) (hok : undisputed i o x s) (h : Fresh s)
    (hexec : o.exec i x s = some (r, t)) : Fresh t := by
  cases r with
  | error fault =>
      rcases CountOp.exec_error hexec with rfl | rfl
      · exact h
      · exact rollback_fresh h
  | ok a =>
      have hperform := CountOp.exec_ok hexec
      cases o with
      | review o =>
          obtain ⟨⟨_, c⟩, hc, heq⟩ := Option.map_eq_some_iff.mp hperform
          obtain ⟨-, rfl⟩ := Prod.mk.inj heq
          obtain ⟨hrows, hcache⟩ := exec_committed hc
          refine ⟨?_, h.wishlist⟩
          intro p y hy
          rw [hcache] at hy
          rw [hrows]
          exact h.reviews p y hy
      | item o =>
          obtain ⟨⟨_, c⟩, hc, heq⟩ := Option.map_eq_some_iff.mp hperform
          obtain ⟨-, rfl⟩ := Prod.mk.inj heq
          obtain ⟨hrows, hcache⟩ := exec_committed hc
          refine ⟨h.reviews, ?_⟩
          intro p y hy
          rw [hcache] at hy
          rw [hrows]
          exact h.wishlist p y hy
      | commit =>
          obtain rfl := (Prod.mk.inj (Option.some.inj hperform)).2
          obtain ⟨hreviews, hwishlist⟩ := Bool.and_eq_true_iff.mp hok
          exact ⟨commit_fresh hw.reviews h.reviews hpre.reviewsWritten hpre.reviewsCovered hreviews,
            commit_fresh hw.wishlist h.wishlist hpre.wishlistWritten hpre.wishlistCovered hwishlist⟩
      | rollback =>
          obtain rfl := (Prod.mk.inj (Option.some.inj hperform)).2
          exact rollback_fresh h

/-- The ratings of the APPROVED reviews of a product that are committed. -/
def approvedRatings (s : CountDesk) (p : ProductId) : List ℕ :=
  (List.range s.reviews.next).filterMap fun k =>
    ((s.reviews.rows.committed k).filter fun r =>
      r.productId = p && r.status = .approved).map ProductReview.rating

/-- How many committed wishlist rows a product has. -/
def wishlistRows (s : CountDesk) (p : ProductId) : ℕ :=
  (List.range s.wishlist.next).countP fun k =>
    (s.wishlist.rows.committed k).any fun w => w.target.productId = some p

/-- The cached columns of a product are what they cache. -/
def Exact (s : CountDesk) : Prop :=
  (∀ p c, s.reviews.cache.committed p = some c → c.count = (s.approvedRatings p).length ∧
    c.avg = (ratingOf (s.approvedRatings p)).avg) ∧
  ∀ p n, s.wishlist.cache.committed p = some n → n = s.wishlistRows p

theorem values_reviews (s : CountDesk) (p : ProductId) :
    reviewFormula.values s.reviews.next s.reviews.rows.committed p = s.approvedRatings p := by
  refine List.filterMap_congr fun k _ => ?_
  cases s.reviews.rows.committed k with
  | none => rfl
  | some r =>
      by_cases hp : r.productId = p
      · by_cases ha : r.status = .approved
        · simp [Formula.part, reviewFormula, hp, ha]
        · simp [Formula.part, reviewFormula, hp, ha]
      · simp [Formula.part, reviewFormula, hp]

theorem values_wishlist (s : CountDesk) (p : ProductId) :
    (wishlistFormula.values s.wishlist.next s.wishlist.rows.committed p).length =
      s.wishlistRows p := by
  simp only [Formula.values, wishlistRows, List.length_filterMap_eq_countP]
  refine List.countP_congr fun k _ => ?_
  cases s.wishlist.rows.committed k with
  | none => simp
  | some w =>
      by_cases hp : w.target.productId = some p
      · simp [Formula.part, wishlistFormula, hp]
      · simp [Formula.part, wishlistFormula, hp]

theorem Fresh.exact (h : Fresh s) (hw : Wf s) : s.Exact := by
  refine ⟨fun p c hc => ?_, fun p n hn => ?_⟩
  · have heq := (h.reviews p c hc).eq hw.reviews.committed_lt
    rw [values_reviews] at heq
    rw [heq]
    exact ⟨rfl, rfl⟩
  · have heq := (h.wishlist p n hn).eq hw.wishlist.committed_lt
    rw [heq]
    exact values_wishlist s p

/-- **Where nobody commits in between, every cached value is right in every state.** -/
theorem cached_counts_exact (s : CountDesk) (as : List (Prog.Act CountRequest (Option Fault)))
    (w : CountWorld) (hs : s.Opening)
    (hguard : Machine.GuardedRun countStep (Prog.World.Admits undisputed) ⟨s, []⟩ as)
    (hrun : Machine.runFrom countStep ⟨s, []⟩ as = some w) : w.state.Exact := by
  have hbody : ∀ (request : CountRequest) i u, countContract.Inv u → countContract.fresh i u →
      countContract.Obeys i ((fun _ _ _ => True : ℕ → Except Fault Unit → CountDesk → Prop) i)
        request.body u := fun request i u _ hf => CountService.obeys_request request hf
  have hstart : countContract.Kept (fun _ _ _ => True) (⟨s, []⟩ : CountWorld) :=
    ⟨hs.wf, fun i p hp => by simp at hp, fun i _ => hs.idle i⟩
  have hkept := Contract.Kept.run hbody as hstart hrun
  have hfresh : Fresh w.state := Contract.Kept.guarded (J := Fresh) hbody
    (fun i o x s r t hw hpre hok hj he => exec_fresh hw hpre hok hj he) as hstart hs.fresh hguard hrun
  exact hfresh.exact hkept.inv

/-- A shop with these products, before the first review and the first wishlist. -/
def newShop (products : ProductId → Bool) : CountDesk where
  reviews := .empty fun p => if products p then some {} else none
  wishlist := .empty fun p => if products p then some 0 else none

theorem newShop_opening (products : ProductId → Bool) : (newShop products).Opening where
  wf := ⟨empty_wf _, empty_wf _⟩
  fresh := by
    refine ⟨empty_fresh fun p c hc => ?_, empty_fresh fun p n hn => ?_⟩
    · split at hc
      · exact (Option.some.inj hc).symm
      · cases hc
    · split at hn
      · exact (Option.some.inj hn).symm
      · cases hn
  idle _ := ⟨empty_untouched _, empty_untouched _⟩

def bookSeven : CountDesk := newShop fun p => p = 7

/-- Two customers review one book; each call inserts, takes its snapshot, writes, commits. -/
def twoReviews : List (Prog.Act CountRequest (Option Fault)) :=
  [.start (.create 1 7 5), .start (.create 2 7 2),
   .run 0 none, .run 1 none, .run 1 none, .run 0 none, .run 0 none, .run 0 none,
   .run 1 none, .run 1 none]

/-- **Two overlapping reviews: both are approved, one is counted.** -/
theorem ratings_drift : ¬ ∀ (s : CountDesk) (as : List (Prog.Act CountRequest (Option Fault)))
    (w : CountWorld), s.Opening → Machine.runFrom countStep ⟨s, []⟩ as = some w →
      w.threads.all Prog.ended = true → w.state.Exact := by
  intro hall
  have hruns : (Machine.runFrom countStep ⟨bookSeven, []⟩ twoReviews).any (fun w =>
      w.threads.all Prog.ended && (w.state.reviews.cache.committed 7 = some ⟨2, 1⟩ &&
        w.state.approvedRatings 7 = [5, 2])) = true := by
    decide +kernel
  obtain ⟨w, hw, hend⟩ := (Option.any_eq_true _ _).mp hruns
  simp only [Bool.and_eq_true, decide_eq_true_eq] at hend
  obtain ⟨hended, hcache, hrows⟩ := hend
  have hexact := (hall bookSeven twoReviews w (newShop_opening _) hw hended).1 7 _ hcache
  rw [hrows] at hexact
  exact absurd hexact.1 (by decide)

/-- One after the other, a third review that fails, and a wishlist in between. -/
def reviewsInTurn : List (Prog.Act CountRequest (Option Fault)) :=
  [.start (.create 1 7 5), .start (.create 2 7 2), .start (.add 3 (.product 7) true),
   .run 0 none, .run 0 none, .run 0 none, .run 2 none, .run 2 none, .run 2 none, .run 0 none,
   .run 1 none, .run 1 none, .run 1 none, .run 1 none, .run 2 none, .run 2 none, .run 2 none,
   .start (.reject 0), .run 3 none, .run 3 none, .run 3 (some (.error "timeout")), .run 3 none]

instance (i : TxId) (o : CountOp) (x : Option Fault) (s : CountDesk) :
    Decidable (undisputed i o x s) := by
  unfold undisputed
  cases o <;> infer_instance

theorem cached_counts_exact_in_turn : ∃ w : CountWorld,
    Machine.runFrom countStep ⟨bookSeven, []⟩ reviewsInTurn = some w ∧
      w.state.reviews.cache.committed 7 = some ⟨7 / 2, 2⟩ ∧
      w.state.wishlist.cache.committed 7 = some 1 ∧ w.state.Exact := by
  have hruns : (Machine.runFrom countStep ⟨bookSeven, []⟩ reviewsInTurn).any (fun w =>
      w.state.reviews.cache.committed 7 = some ⟨7 / 2, 2⟩ &&
        w.state.wishlist.cache.committed 7 = some 1) = true := by
    decide +kernel
  have hguard : Machine.GuardedRun countStep (Prog.World.Admits undisputed) ⟨bookSeven, []⟩
      reviewsInTurn := by
    decide +kernel
  obtain ⟨w, hw, hend⟩ := (Option.any_eq_true _ _).mp hruns
  simp only [Bool.and_eq_true, decide_eq_true_eq] at hend
  exact ⟨w, hw, hend.1, hend.2,
    cached_counts_exact bookSeven reviewsInTurn w (newShop_opening _) hguard hw⟩

end CountDesk

end BookHouse
