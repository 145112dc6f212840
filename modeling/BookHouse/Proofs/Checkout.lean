/-
Asking twice.

The rows that a key has had are the orders that have been placed under it, the last one being
there still: a row goes only in the transaction that leaves the next one, and by then it has
expired.  So a key stands for one order until it expires, and every answer is the answer of an
order that was placed for that request, whether the answer before it arrived or not.
-/
import BookHouse.Orders.CheckoutDesk
import BookHouse.Proofs.CartQuote
import BookHouse.Proofs.Idempotency
import BookHouse.Proofs.Reports

namespace BookHouse

/-- The row as the placement of an order leaves it. -/
def KeyRow.answered (row : KeyRow) (o : Order) : KeyRow :=
  { row with responseCode := some 201, responseBody := some (toPlacedOrder o) }

/-- The row that a placement leaves for a key. -/
def Draft.rowOf (key : String) (d : Draft) : Option KeyRow :=
  (d.claim.filter (·.1 = key)).map fun c => c.2.answered d.order

/-- What a claim is for. -/
def claimedFor (c : String × KeyRow) : Prepared :=
  { scope := c.2.scope, key := c.1, hash := c.2.requestHash }

def Draft.prepared (d : Draft) : Option Prepared := d.claim.map claimedFor

/-- What is held for a claim when its order has been placed. -/
def Draft.answeredClaim (d : Draft) : Option (String × KeyRow) :=
  d.claim.map fun c => (c.1, c.2.answered d.order)

namespace CheckoutDesk

open Prog

variable {host : CheckoutHost} {ids : List OrderId} {s t : CheckoutDesk} {i j : TxId}
  {key : String} {row : KeyRow}

/-- The rows that a key has had, the last one first. -/
def history (s : CheckoutDesk) (key : String) : List KeyRow :=
  s.placed.filterMap (Draft.rowOf key)

/-- Each order is placed once, and a key that has expired is claimed again only after that. -/
structure PlacedOnce (ids : List OrderId) (s : CheckoutDesk) : Prop where
  orders : s.store.orders.map (·.id) = ids ++ (s.placed.map (·.order.id)).reverse
  one_at_a_time : ∀ key, (s.history key).IsChain fun new old => old.expiresAt < new.claimedAt

structure Inv (host : CheckoutHost) (ids : List OrderId) (s : CheckoutDesk) : Prop where
  once : PlacedOnce ids s
  latest : ∀ key, s.keys.committed key = (s.history key).head?
  prepared : ∀ d ∈ s.placed, d.call.prepare host = .ok d.prepared

/-! ### What the others leave alone -/

/-- The transaction has nothing in hand. -/
structure Clean (i : TxId) (s : CheckoutDesk) : Prop where
  keys : ∀ k, s.keys.own i k = none
  draft : s.drafts i = none

structure Rely (i : TxId) (s t : CheckoutDesk) : Prop where
  keys : ∀ k, t.keys.own i k = s.keys.own i k
  draft : t.drafts i = s.drafts i
  kept : ∀ k, (s.keys.own i k).isSome → t.keys.committed k = s.keys.committed k
  placed : s.placed <:+ t.placed

theorem Rely.refl : Rely i s s := ⟨fun _ => rfl, rfl, fun _ _ => rfl, List.suffix_refl _⟩

theorem Rely.trans {u : CheckoutDesk} (h : Rely i s t) (h' : Rely i t u) : Rely i s u where
  keys k := (h'.keys k).trans (h.keys k)
  draft := h'.draft.trans h.draft
  kept k hk := (h'.kept k (by rw [h.keys]; exact hk)).trans (h.kept k hk)
  placed := h.placed.trans h'.placed

theorem Clean.stable (h : Rely i s t) (hc : Clean i s) : Clean i t :=
  ⟨fun k => (h.keys k).trans (hc.keys k), h.draft.trans hc.draft⟩

/-- No other key is in hand. -/
def Only (s : CheckoutDesk) (i : TxId) (key : String) : Prop :=
  ∀ k, k ≠ key → s.keys.own i k = none

/-- What was there has expired before the clock showed `claimedAt`. -/
def Expired (s : CheckoutDesk) (key : String) (claimedAt : Instant) : Prop :=
  ∀ r, s.keys.committed key = some r → r.expiresAt < claimedAt

/-- The transaction has put this row in place of one that has expired, if any. -/
structure Holds (s : CheckoutDesk) (i : TxId) (key : String) (row : KeyRow) : Prop where
  only : Only s i key
  own : s.keys.own i key = some (some row)
  expired : Expired s key row.claimedAt

theorem Only.stable (h : Rely i s t) (ho : Only s i key) : Only t i key :=
  fun k hk => (h.keys k).trans (ho k hk)

theorem Holds.stable (h : Rely i s t) (hh : Holds s i key row) : Holds t i key row where
  only := hh.only.stable h
  own := (h.keys key).trans hh.own
  expired r hr := by
    rw [h.kept key (by rw [hh.own]; rfl)] at hr
    exact hh.expired r hr

/-- What a transaction holds for its claim. -/
def HoldsClaim (s : CheckoutDesk) (i : TxId) : Option (String × KeyRow) → Prop
  | none => ∀ k, s.keys.own i k = none
  | some c => Holds s i c.1 c.2

theorem HoldsClaim.stable {claim : Option (String × KeyRow)} (h : Rely i s t)
    (hc : HoldsClaim s i claim) : HoldsClaim t i claim := by
  cases claim with
  | none => exact fun k => (h.keys k).trans (hc k)
  | some c => exact Holds.stable h hc

/-- The transaction may look whether the key can be had. -/
structure Claiming (s : CheckoutDesk) (i : TxId) (key : String) (claimedAt : Instant) : Prop where
  only : Only s i key
  draft : s.drafts i = none
  free : s.keys.own i key = none ∨
    (s.keys.own i key = some none ∧ Expired s key claimedAt)

theorem Claiming.stable {claimedAt : Instant} (h : Rely i s t) (hc : Claiming s i key claimedAt) :
    Claiming t i key claimedAt := by
  refine ⟨hc.only.stable h, h.draft.trans hc.draft, ?_⟩
  rcases hc.free with hfree | ⟨hgone, hexpired⟩
  · exact .inl ((h.keys key).trans hfree)
  · refine .inr ⟨(h.keys key).trans hgone, fun r hr => ?_⟩
    rw [h.kept key (by rw [hgone]; rfl)] at hr
    exact hexpired r hr

/-- The transaction has placed an order, and holds for it what it has claimed. -/
structure Placing (host : CheckoutHost) (s : CheckoutDesk) (i : TxId) (d : Draft)
    (held : Option (String × KeyRow)) : Prop where
  draft : s.drafts i = some d
  prepared : d.call.prepare host = .ok d.prepared
  holds : HoldsClaim s i held

theorem Placing.stable {d : Draft} {held : Option (String × KeyRow)} (h : Rely i s t)
    (hp : Placing host s i d held) : Placing host t i d held :=
  ⟨h.draft.trans hp.draft, hp.prepared, hp.holds.stable h⟩

/-- What a transaction has to know before a statement. -/
def checkoutPre (host : CheckoutHost) (i : TxId) : CheckoutOp → CheckoutDesk → Prop
  | .deleteExpired _ _, s => Clean i s
  | .createKey key row, s => Claiming s i key row.claimedAt
  | .place request claim _, s => s.drafts i = none ∧ HoldsClaim s i claim ∧
      request.prepare host = .ok (claim.map claimedFor)
  | .completeKey key code body, s => ∃ d row, Placing host s i d d.claim ∧
      d.claim = some (key, row) ∧ code = 201 ∧ body = toPlacedOrder d.order
  | .commit, s => ∃ d, Placing host s i d d.answeredClaim
  | _, _ => True

theorem checkoutPre_stable {o : CheckoutOp} (h : Rely i s t) (hp : checkoutPre host i o s) :
    checkoutPre host i o t := by
  cases o with
  | deleteExpired key now => exact Clean.stable h hp
  | createKey key row => exact Claiming.stable h hp
  | place request claim now => exact ⟨h.draft.trans hp.1, hp.2.1.stable h, hp.2.2⟩
  | completeKey key code body =>
      obtain ⟨d, row, hplacing, hrest⟩ := hp
      exact ⟨d, row, hplacing.stable h, hrest⟩
  | commit =>
      obtain ⟨d, hplacing⟩ := hp
      exact ⟨d, hplacing.stable h⟩
  | _ => trivial

/-! ### The statements -/

theorem put_cases {v : Option KeyRow} {r : Except Fault Unit}
    (h : s.put i key v = some (r, t)) :
    s.keys.free i key = true ∧ r = .ok () ∧ t = { s with keys := s.keys.put i key v } := by
  unfold CheckoutDesk.put at h
  split at h
  next hfree =>
    obtain ⟨rfl, rfl⟩ := Prod.mk.inj (Option.some.inj h)
    exact ⟨hfree, rfl, rfl⟩
  next => cases h

theorem deleteExpired_cases {now : Instant} {r : Except Fault Unit}
    (h : s.deleteExpired i key now = some (r, t)) : r = .ok () ∧
    (t = s ∨ ∃ old, s.keys.seen i key = some old ∧ old.expiresAt < now ∧
      s.keys.free i key = true ∧ t = { s with keys := s.keys.put i key none }) := by
  unfold CheckoutDesk.deleteExpired at h
  split at h
  next hold =>
    obtain ⟨old, hseen, hlt⟩ := (Option.any_eq_true _ _).mp hold
    obtain ⟨hfree, hr, rfl⟩ := put_cases h
    exact ⟨hr, .inr ⟨old, hseen, of_decide_eq_true hlt, hfree, rfl⟩⟩
  next =>
    obtain ⟨rfl, rfl⟩ := Prod.mk.inj (Option.some.inj h)
    exact ⟨rfl, .inl rfl⟩

theorem createKey_cases {r : Except Fault Unit} (h : s.createKey i key row = some (r, t)) :
    ((∃ e, r = .error e) ∧ t = s) ∨ (s.keys.seen i key = none ∧ s.keys.free i key = true ∧
      r = .ok () ∧ t = { s with keys := s.keys.put i key (some row) }) := by
  unfold CheckoutDesk.createKey at h
  split at h
  next =>
    obtain ⟨rfl, rfl⟩ := Prod.mk.inj (Option.some.inj h)
    exact .inl ⟨⟨_, rfl⟩, rfl⟩
  next hseen =>
    obtain ⟨hfree, hr, ht⟩ := put_cases h
    refine .inr ⟨?_, hfree, hr, ht⟩
    simpa [hfree] using hseen

theorem completeKey_cases {code : ℕ} {body : PlacedOrder} {r : Except Fault Unit}
    (h : s.completeKey i key code body = some (r, t)) :
    ((∃ e, r = .error e) ∧ t = s) ∨ ∃ row, s.keys.seen i key = some row ∧
      s.keys.free i key = true ∧ r = .ok () ∧ t = { s with
        keys := s.keys.put i key
          (some { row with responseCode := some code, responseBody := some body }) } := by
  unfold CheckoutDesk.completeKey at h
  split at h
  next =>
    obtain ⟨rfl, rfl⟩ := Prod.mk.inj (Option.some.inj h)
    exact .inl ⟨⟨_, rfl⟩, rfl⟩
  next row hseen =>
    obtain ⟨hfree, hr, ht⟩ := put_cases h
    exact .inr ⟨row, hseen, hfree, hr, ht⟩

theorem place_cases {request : PlaceCall} {shop : Shop} {claim : Option (String × KeyRow)}
    {now : Instant} {r : Except Fault Order}
    (h : s.place host i request shop claim now = (r, t)) :
    ((∃ e, r = .error e) ∧ t = s) ∨ ∃ order, r = .ok order ∧ t = { s with
      drafts := Function.update s.drafts i
        (some { call := request, shop, now, order, claim }) } := by
  unfold CheckoutDesk.place at h
  split at h
  · obtain ⟨rfl, rfl⟩ := Prod.mk.inj h
    exact .inl ⟨⟨_, rfl⟩, rfl⟩
  next order _ =>
    obtain ⟨rfl, rfl⟩ := Prod.mk.inj h
    exact .inr ⟨order, rfl, rfl⟩

/-- A commit either stands, with the order placed on what is there, or it rolls back. -/
theorem commit_cases {d : Draft} {r : Except Fault Unit} (hd : s.drafts i = some d)
    (h : s.commit host i = (r, t)) :
    ((∃ e, r = .error e) ∧ t = s.rollback i) ∨ ∃ store,
      d.call.placeOn host d.shop d.now s.store = .ok (store, d.order) ∧ r = .ok () ∧
      t = { keys := s.keys.commit i, store, drafts := Function.update s.drafts i none,
            placed := d :: s.placed } := by
  unfold CheckoutDesk.commit at h
  rw [hd] at h
  dsimp only at h
  split at h
  · obtain ⟨rfl, rfl⟩ := Prod.mk.inj h
    exact .inl ⟨⟨_, rfl⟩, rfl⟩
  next store order hrun =>
    split at h
    next heq =>
      obtain ⟨rfl, rfl⟩ := Prod.mk.inj h
      exact .inr ⟨store, heq ▸ hrun, rfl, rfl⟩
    next =>
      obtain ⟨rfl, rfl⟩ := Prod.mk.inj h
      exact .inl ⟨⟨_, rfl⟩, rfl⟩

/-! ### What a step does to the others and to what is kept -/

theorem placeOn_orders {request : PlaceCall} {shop : Shop} {now : Instant} {u v : Store} {o : Order}
    (h : request.placeOn host shop now u = .ok (v, o)) :
    v.orders.map (·.id) = u.orders.map (·.id) ++ [o.id] := by
  obtain ⟨d, lines, -, hplaced⟩ := placeInTx_resolves h
  obtain ⟨_, _, _, _, -, hrows⟩ := placeInTx_orders hplaced
  rw [hrows, List.map_append, List.map_singleton]

/-- Where nothing is committed, the others notice nothing. -/
theorem rely_of_put {v : Option KeyRow} (hfree : s.keys.free i key = true) (hj : j ≠ i) :
    Rely j s { s with keys := s.keys.put i key v } :=
  ⟨fun _ => Versions.own_put_other hj hfree, rfl, fun _ _ => rfl, List.suffix_refl _⟩

theorem rollback_rely (hj : j ≠ i) : Rely j s (s.rollback i) :=
  ⟨fun _ => Versions.own_rollback_other hj, Function.update_of_ne hj _ _, fun _ _ => rfl,
    List.suffix_refl _⟩

theorem rollback_clean : Clean i (s.rollback i) :=
  ⟨fun _ => Versions.own_rollback_self, Function.update_self ..⟩

/-- A step that leaves the rows and the placements alone. -/
theorem Inv.congr (h : Inv host ids s) (hkeys : t.keys.committed = s.keys.committed)
    (horders : t.store.orders.map (·.id) = s.store.orders.map (·.id))
    (hplaced : t.placed = s.placed) : Inv host ids t := by
  have hhistory : ∀ k, t.history k = s.history k := fun k => by rw [history, hplaced, history]
  refine ⟨⟨?_, fun k => ?_⟩, fun k => ?_, ?_⟩
  · rw [horders, hplaced]
    exact h.once.orders
  · rw [hhistory]
    exact h.once.one_at_a_time k
  · rw [hkeys, hhistory]
    exact h.latest k
  · rw [hplaced]
    exact h.prepared

section commit

variable {d : Draft} {store : Store}

/-- The state after a commit that stands. -/
def settled (s : CheckoutDesk) (i : TxId) (d : Draft) (store : Store) : CheckoutDesk :=
  { keys := s.keys.commit i, store, drafts := Function.update s.drafts i none,
    placed := d :: s.placed }

theorem settled_rely (hj : j ≠ i) : Rely j s (settled s i d store) := by
  refine ⟨fun _ => Versions.own_commit_other hj, Function.update_of_ne hj _ _, fun k hk => ?_,
    List.suffix_cons _ _⟩
  show s.keys.seen i k = s.keys.committed k
  refine Versions.seen_of_own_none ?_
  obtain ⟨v, hv⟩ := Option.isSome_iff_exists.mp hk
  cases hi : s.keys.own i k with
  | none => rfl
  | some v' => exact absurd (Versions.own_inj hv hi) hj

theorem settled_clean : Clean i (settled s i d store) :=
  ⟨fun _ => Versions.own_commit_self, Function.update_self ..⟩

theorem rowOf_of_claim {c : String × KeyRow} (h : d.claim = some c) (k : String) :
    d.rowOf k = if c.1 = k then some (c.2.answered d.order) else none := by
  unfold Draft.rowOf
  rw [h, Option.filter_some]
  by_cases hk : c.1 = k
  · simp [hk]
  · simp [hk]

/-- What a placement adds to the rows of a key, the committed row shows. -/
theorem history_settled (hlatest : ∀ k, s.keys.committed k = (s.history k).head?)
    (hp : Placing host s i d d.answeredClaim) (k : String) :
    (settled s i d store).keys.committed k = ((settled s i d store).history k).head? ∧
      ((s.history k).IsChain (fun new old => old.expiresAt < new.claimedAt) →
        ((settled s i d store).history k).IsChain fun new old => old.expiresAt < new.claimedAt) := by
  have hrows : (settled s i d store).history k = (d.rowOf k).toList ++ s.history k := by
    show (d :: s.placed).filterMap (Draft.rowOf k) = _
    rw [List.filterMap_cons]
    cases d.rowOf k <;> rfl
  have hcommitted : (settled s i d store).keys.committed k = s.keys.seen i k := rfl
  have hholds := hp.holds
  rw [hrows, hcommitted]
  cases hclaim : d.claim with
  | none =>
      rw [Draft.answeredClaim, hclaim] at hholds
      have hnone : d.rowOf k = none := by
        unfold Draft.rowOf
        rw [hclaim]
        rfl
      rw [hnone, Versions.seen_of_own_none (hholds k)]
      exact ⟨hlatest k, fun hc => hc⟩
  | some c =>
      rw [Draft.answeredClaim, hclaim] at hholds
      have hheld : Holds s i c.1 (c.2.answered d.order) := hholds
      rw [rowOf_of_claim hclaim]
      by_cases hk : c.1 = k
      · subst hk
        rw [if_pos rfl, Versions.seen_of_own hheld.own]
        refine ⟨rfl, fun hchain => ?_⟩
        cases hold : s.history c.1 with
        | nil => exact List.isChain_singleton _
        | cons old rest =>
            rw [hold] at hchain
            refine List.isChain_cons_cons.mpr ⟨hheld.expired old ?_, hchain⟩
            rw [hlatest, hold]
            rfl
      · rw [if_neg hk, Versions.seen_of_own_none (hheld.only k (Ne.symm hk))]
        exact ⟨hlatest k, fun hc => hc⟩

theorem settled_inv (h : Inv host ids s) (hp : Placing host s i d d.answeredClaim)
    (hrun : d.call.placeOn host d.shop d.now s.store = .ok (store, d.order)) :
    Inv host ids (settled s i d store) := by
  refine ⟨⟨?_, fun k => ?_⟩, fun k => (history_settled h.latest hp k).1, fun d' hd' => ?_⟩
  · show store.orders.map (·.id) = ids ++ ((d :: s.placed).map (·.order.id)).reverse
    rw [placeOn_orders hrun, h.once.orders, List.map_cons, List.reverse_cons, List.append_assoc]
  · exact (history_settled h.latest hp k).2 (h.once.one_at_a_time k)
  · rcases List.mem_cons.mp hd' with rfl | hold
    · exact hp.prepared
    · exact h.prepared d' hold

theorem commit_keeps {r : Except Fault Unit} (h : Inv host ids s)
    (hp : Placing host s i d d.answeredClaim) (hcommit : s.commit host i = (r, t)) :
    Inv host ids t ∧ ∀ j, j ≠ i → Rely j s t := by
  rcases commit_cases hp.draft hcommit with ⟨-, rfl⟩ | ⟨store, hrun, -, rfl⟩
  · exact ⟨h.congr rfl rfl rfl, fun j hj => rollback_rely hj⟩
  · exact ⟨settled_inv h hp hrun, fun j hj => settled_rely hj⟩

end commit

theorem perform_keeps {o : CheckoutOp} {x : CheckoutInput} {r : Except Fault o.Res}
    (hs : Inv host ids s) (hp : checkoutPre host i o s)
    (h : o.perform host i x s = some (r, t)) : Inv host ids t ∧ ∀ j, j ≠ i → Rely j s t := by
  cases o with
  | deleteExpired key now =>
      rcases (deleteExpired_cases h).2 with rfl | ⟨-, -, -, hfree, rfl⟩
      · exact ⟨hs, fun _ _ => Rely.refl⟩
      · exact ⟨hs.congr rfl rfl rfl, fun j hj => rely_of_put hfree hj⟩
  | createKey key row =>
      rcases createKey_cases h with ⟨-, rfl⟩ | ⟨-, hfree, -, rfl⟩
      · exact ⟨hs, fun _ _ => Rely.refl⟩
      · exact ⟨hs.congr rfl rfl rfl, fun j hj => rely_of_put hfree hj⟩
  | completeKey key code body =>
      rcases completeKey_cases h with ⟨-, rfl⟩ | ⟨row, -, hfree, -, rfl⟩
      · exact ⟨hs, fun _ _ => Rely.refl⟩
      · exact ⟨hs.congr rfl rfl rfl, fun j hj => rely_of_put hfree hj⟩
  | place request claim now =>
      rcases place_cases (Option.some.inj h) with ⟨-, rfl⟩ | ⟨order, -, rfl⟩
      · exact ⟨hs, fun _ _ => Rely.refl⟩
      · exact ⟨hs.congr rfl rfl rfl, fun j hj =>
          ⟨fun _ => rfl, Function.update_of_ne hj _ _, fun _ _ => rfl, List.suffix_refl _⟩⟩
  | commit =>
      obtain ⟨d, hplacing⟩ := hp
      exact commit_keeps hs hplacing (Option.some.inj h)
  | rollback =>
      obtain ⟨-, rfl⟩ := Prod.mk.inj (Option.some.inj h)
      exact ⟨hs.congr rfl rfl rfl, fun j hj => rollback_rely hj⟩
  | others store =>
      simp only [CheckoutOp.perform] at h
      split at h
      next horders =>
        obtain ⟨-, rfl⟩ := Prod.mk.inj (Option.some.inj h)
        exact ⟨hs.congr rfl horders rfl, fun _ _ => ⟨fun _ => rfl, rfl, fun _ _ => rfl,
          List.suffix_refl _⟩⟩
      next => cases h
  | clock | findKey =>
      obtain ⟨-, rfl⟩ := Prod.mk.inj (Option.some.inj h)
      exact ⟨hs, fun _ _ => Rely.refl⟩

/-- A statement ends with a fault, or does what it is for. -/
theorem exec_cases {o : CheckoutOp} {x : CheckoutInput} {r : Except Fault o.Res}
    (h : o.exec host i x s = some (r, t)) :
    (∃ e, r = .error e ∧ t = o.dropped host i x s) ∨ o.perform host i x s = some (r, t) := by
  unfold CheckoutOp.exec at h
  cases hf : x.fault with
  | none =>
      refine .inr ?_
      cases o with
      | rollback => exact h
      | _ => simpa only [hf] using h
  | some e =>
      cases o with
      | rollback => exact .inr h
      | _ =>
          simp only [hf] at h
          obtain ⟨rfl, rfl⟩ := Prod.mk.inj (Option.some.inj h)
          exact .inl ⟨_, rfl, rfl⟩

theorem dropped_keeps {o : CheckoutOp} {x : CheckoutInput} (hs : Inv host ids s)
    (hp : checkoutPre host i o s) :
    Inv host ids (o.dropped host i x s) ∧ ∀ j, j ≠ i → Rely j s (o.dropped host i x s) := by
  cases o with
  | commit =>
      obtain ⟨d, hplacing⟩ := hp
      by_cases hlost : x.lost = true
      · rw [CheckoutOp.dropped, if_pos hlost]
        exact commit_keeps (r := (s.commit host i).1) hs hplacing rfl
      · rw [CheckoutOp.dropped, if_neg hlost]
        exact ⟨hs.congr rfl rfl rfl, fun j hj => rollback_rely hj⟩
  | _ => exact ⟨hs, fun _ _ => Rely.refl⟩

def checkoutContract (host : CheckoutHost) (ids : List OrderId) :
    Contract CheckoutOp CheckoutOp.Res Fault CheckoutDesk CheckoutInput where
  exec := CheckoutOp.exec host
  Inv := Inv host ids
  Rely := Rely
  pre := checkoutPre host
  rely_refl _ _ := Rely.refl
  rely_trans := Rely.trans
  pre_stable := checkoutPre_stable
  fresh := Clean
  fresh_stable := Clean.stable
  step hs hp h := by
    rcases exec_cases h with ⟨e, -, rfl⟩ | hperform
    · exact dropped_keeps hs hp
    · exact perform_keeps hs hp hperform

/-! ### The programs -/

section programs

variable {α β : Type} {Q : Except Fault β → CheckoutDesk → Prop} {request : PlaceCall}
  {idem : Option Prepared} {p : Prepared}

/-- Only a commit that fails changes anything. -/
theorem exec_error {o : CheckoutOp} {x : CheckoutInput} {e : Fault} (ho : o ≠ .commit)
    (h : o.exec host i x s = some (.error e, t)) : t = s := by
  rcases exec_cases h with ⟨_, -, rfl⟩ | hperform
  · cases o with
    | commit => exact absurd rfl ho
    | _ => rfl
  · cases o with
    | deleteExpired key now =>
        cases (deleteExpired_cases hperform).1
    | createKey key row =>
        rcases createKey_cases hperform with ⟨-, ht⟩ | ⟨-, -, he, -⟩
        · exact ht
        · cases he
    | completeKey key code body =>
        rcases completeKey_cases hperform with ⟨-, ht⟩ | ⟨-, -, -, he, -⟩
        · exact ht
        · cases he
    | place call claim now =>
        rcases place_cases (Option.some.inj hperform) with ⟨-, ht⟩ | ⟨_, he, -⟩
        · exact ht
        · cases he
    | others store =>
        simp only [CheckoutOp.perform] at hperform
        split at hperform
        · cases hperform
        · cases hperform
    | commit => exact absurd rfl ho
    | clock | findKey | rollback => cases hperform

/-- One statement and the rest of the program. -/
theorem obeys_run {o : CheckoutOp} {f : o.Res → CheckoutCall β} (ho : o ≠ .commit)
    (hpre : checkoutPre host i o s) (hfault : ∀ e t, Rely i s t → Q (.error e) t)
    (hok : ∀ s₁ x a s₂, Rely i s s₁ → Inv host ids s₁ → o.perform host i x s₁ = some (.ok a, s₂) →
      (checkoutContract host ids).Obeys i Q (f a) s₂) :
    (checkoutContract host ids).Obeys i Q (CheckoutCall.run o >>= f) s := by
  refine Contract.Obeys.perform hpre (fun s₁ x a s₂ h₁ hs h => ?_)
    fun s₁ x e s₂ h₁ _ h t ht => ?_
  · rcases exec_cases h with ⟨e, he, -⟩ | hperform
    · cases he
    · exact hok s₁ x a s₂ h₁ hs hperform
  · obtain rfl := exec_error ho h
    exact hfault e t (h₁.trans ht)

/-- The clock tells the time and changes nothing. -/
theorem obeys_clock {f : Instant → CheckoutCall β} (hfault : ∀ e t, Rely i s t → Q (.error e) t)
    (hok : ∀ now t, Rely i s t → (checkoutContract host ids).Obeys i Q (f now) t) :
    (checkoutContract host ids).Obeys i Q (CheckoutCall.run .clock >>= f) s := by
  refine obeys_run (by simp) trivial hfault fun s₁ x a s₂ h₁ _ h => ?_
  obtain ⟨-, rfl⟩ := Prod.mk.inj (Option.some.inj h)
  exact hok a s₁ h₁

/-- **What an answer says is so**: it is that of an order placed for this request, or for one
that is known by the same. -/
inductive Answered (host : CheckoutHost) (request : PlaceCall) (s : CheckoutDesk) :
    PlaceAnswer → Prop
  | placed {d : Draft} (hd : d ∈ s.placed) (hcall : d.call = request) :
      Answered host request s
        { replayed := false, code := 201, body := some (toPlacedOrder d.order) }
  | again {d : Draft} {p : Prepared} (hd : d ∈ s.placed)
      (hplaced : d.call.prepare host = .ok (some p))
      (hrequest : request.prepare host = .ok (some p)) :
      Answered host request s
        { replayed := true, code := 201, body := some (toPlacedOrder d.order) }

theorem Answered.stable {answer : PlaceAnswer} (h : Rely i s t)
    (ha : Answered host request s answer) : Answered host request t answer := by
  cases ha with
  | placed hd hcall => exact .placed (h.placed.subset hd) hcall
  | again hd hplaced hrequest => exact .again (h.placed.subset hd) hplaced hrequest

/-- A row of a key is that of an order which was placed under it. -/
theorem placed_of_row (h : Inv host ids s) (hrow : s.keys.committed key = some row) :
    ∃ d ∈ s.placed, d.call.prepare host = .ok (some (claimedFor (key, row))) ∧
      row.responseCode = some 201 ∧ row.responseBody = some (toPlacedOrder d.order) := by
  rw [h.latest] at hrow
  obtain ⟨d, hd, hof⟩ := List.mem_filterMap.mp (List.mem_of_head? hrow)
  cases hclaim : d.claim with
  | none =>
      unfold Draft.rowOf at hof
      rw [hclaim] at hof
      cases hof
  | some c =>
      rw [rowOf_of_claim hclaim] at hof
      split at hof
      next hkey =>
        obtain rfl := Option.some.inj hof
        refine ⟨d, hd, ?_, rfl, rfl⟩
        rw [h.prepared d hd, Draft.prepared, hclaim, ← hkey]
        rfl
      next => cases hof

/-- What is answered again was answered to the same. -/
abbrev Replayed (host : CheckoutHost) (i : TxId) (request : PlaceCall) :
    Except Fault (Option PlaceAnswer) → CheckoutDesk → Prop :=
  Contract.Ends (fun a s => Clean i s ∧ ∀ answer, a = some answer → Answered host request s answer)
    (Clean i)

theorem obeys_lookup (hprep : request.prepare host = .ok (some p)) (hc : Clean i s) :
    (checkoutContract host ids).Obeys i (Replayed host i request) (CheckoutCall.lookup p) s := by
  refine obeys_run (by simp) trivial (fun e t ht => hc.stable ht) fun s₁ x a s₂ h₁ hs h => ?_
  obtain ⟨ha, rfl⟩ := Prod.mk.inj (Option.some.inj h)
  have hc₁ := hc.stable h₁
  have hseen : s₁.keys.committed p.key = a := by
    rw [← Versions.seen_of_own_none (hc₁.keys p.key)]
    exact Except.ok.inj ha
  cases a with
  | none => exact fun t ht => ⟨hc₁.stable ht, fun _ hn => by cases hn⟩
  | some row =>
      obtain ⟨d, hd, hsame, hcode, hbody⟩ := placed_of_row hs hseen
      refine obeys_clock (fun e t ht => hc₁.stable ht) fun now s₂ h₂ => ?_
      have hc₂ := hc₁.stable h₂
      show (checkoutContract host ids).Obeys i _ (if _ then _ else _) s₂
      split
      · exact fun t ht => ⟨hc₂.stable ht, fun _ hn => by cases hn⟩
      show (checkoutContract host ids).Obeys i _ (if _ then _ else _) s₂
      split
      · exact fun t ht => hc₂.stable ht
      next hmatch =>
        rw [not_or, not_not, not_not] at hmatch
        have hknown : claimedFor (p.key, row) = p := by rw [claimedFor, hmatch.1, hmatch.2]
        rw [hcode, hbody]
        refine fun t ht => ⟨hc₂.stable ht, fun answer hanswer => ?_⟩
        obtain rfl := Option.some.inj hanswer
        exact Answered.stable ht (.again (h₂.placed.subset hd) (hknown ▸ hsame) hprep)

theorem obeys_replay (hprep : request.prepare host = .ok idem) (hc : Clean i s) :
    (checkoutContract host ids).Obeys i (Replayed host i request) (CheckoutCall.replay idem) s := by
  cases idem with
  | none => exact fun t ht => ⟨hc.stable ht, fun _ hn => by cases hn⟩
  | some p => exact obeys_lookup hprep hc

/-- A part of a transaction that ends with `R`, or with a fault. -/
abbrev Reaches (R : α → CheckoutDesk → Prop) : Except Fault α → CheckoutDesk → Prop :=
  Contract.Ends R fun _ => True

/-- What a claim has in hand. -/
structure Claimed (i : TxId) (p : Prepared) (c : String × KeyRow) (s : CheckoutDesk) : Prop where
  holds : Holds s i c.1 c.2
  draft : s.drafts i = none
  claimed : claimedFor c = p

theorem obeys_claim (hc : Clean i s) :
    (checkoutContract host ids).Obeys i (Reaches (Claimed i p)) (CheckoutCall.claim p) s := by
  refine obeys_clock (fun _ _ _ => trivial) fun claimedAt s₀ h₀ => ?_
  have hc₀ := hc.stable h₀
  refine obeys_run (by simp) hc₀ (fun _ _ _ => trivial) fun s₁ x a s₂ h₁ hs h => ?_
  have hc₁ := hc₀.stable h₁
  -- the key is free, or its row has expired and is deleted
  have hclaiming : Claiming s₂ i p.key claimedAt := by
    rcases (deleteExpired_cases h).2 with rfl | ⟨old, hold, hlt, hfree, rfl⟩
    · exact ⟨fun k _ => hc₁.keys k, hc₁.draft, .inl (hc₁.keys _)⟩
    · refine ⟨fun k hk => (Versions.own_put_of_ne hk).trans (hc₁.keys k), hc₁.draft,
        .inr ⟨Versions.own_put_self, fun r hr => ?_⟩⟩
      have hr' : s₁.keys.committed p.key = some r := hr
      rw [Versions.seen_of_own_none (hc₁.keys p.key), hr'] at hold
      exact Option.some.inj hold ▸ hlt
  refine obeys_clock (fun _ _ _ => trivial) fun now s₃ h₃ => ?_
  refine obeys_run (by simp) (hclaiming.stable h₃) (fun _ _ _ => trivial)
    fun s₄ x a s₅ h₄ _ h => ?_
  have hclaiming₄ := (hclaiming.stable h₃).stable h₄
  rcases createKey_cases h with ⟨⟨e, he⟩, -⟩ | ⟨hnone, hfree, -, rfl⟩
  · cases he
  · have hexpired : Expired s₄ p.key claimedAt := by
      rcases hclaiming₄.free with hown | ⟨-, hexpired⟩
      · intro r hr
        rw [Versions.seen_of_own_none hown, hr] at hnone
        cases hnone
      · exact hexpired
    refine fun t ht => ⟨Holds.stable ht ⟨fun k hk => ?_, Versions.own_put_self, hexpired⟩,
      ht.draft.trans hclaiming₄.draft, rfl⟩
    exact (Versions.own_put_of_ne hk).trans (hclaiming₄.only k hk)

/-- What the transaction comes to its commit with. -/
def Ready (host : CheckoutHost) (i : TxId) (request : PlaceCall) (body : PlacedOrder)
    (s : CheckoutDesk) : Prop :=
  ∃ d, Placing host s i d d.answeredClaim ∧ d.call = request ∧ body = toPlacedOrder d.order

theorem Ready.stable {body : PlacedOrder} (h : Rely i s t) (hr : Ready host i request body s) :
    Ready host i request body t := by
  obtain ⟨d, hplacing, hrest⟩ := hr
  exact ⟨d, hplacing.stable h, hrest⟩

/-- Write the order, and its answer to the key that is held for it. -/
theorem obeys_write (claim : Option (String × KeyRow))
    (hprep : request.prepare host = .ok idem) (hdraft : s.drafts i = none)
    (hholds : HoldsClaim s i claim) (hclaim : claim.map claimedFor = idem) {now : Instant} :
    (checkoutContract host ids).Obeys i (Reaches (Ready host i request)) (do
      let order ← CheckoutCall.run (.place request claim now)
      let body := toPlacedOrder order
      if let some p := idem then CheckoutCall.run (.completeKey p.key 201 body)
      return body) s := by
  refine obeys_run (by simp) ⟨hdraft, hholds, hprep.trans (by rw [hclaim])⟩
    (fun _ _ _ => trivial) fun s₁ x order s₂ h₁ _ h => ?_
  rcases place_cases (Option.some.inj h) with ⟨⟨e, he⟩, -⟩ | ⟨o, ho, rfl⟩
  · cases he
  obtain rfl := Except.ok.inj ho
  set d : Draft := { call := request, shop := x.shop, now, order, claim } with hd
  have hplacing : Placing host { s₁ with drafts := Function.update s₁.drafts i (some d) } i d
      claim := by
    refine ⟨Function.update_self .., hprep.trans (by rw [← hclaim]; rfl), ?_⟩
    have hheld := hholds.stable h₁
    cases claim with
    | none => exact hheld
    | some c => exact ⟨hheld.only, hheld.own, hheld.expired⟩
  cases claim with
  | none =>
      subst hclaim
      exact fun t ht => ⟨d, hplacing.stable ht, rfl, rfl⟩
  | some c =>
      subst hclaim
      refine obeys_run (by simp) ⟨d, c.2, hplacing, rfl, rfl, rfl⟩ (fun _ _ _ => trivial)
        fun s₃ y a s₄ h₃ _ hput => ?_
      have hplacing₃ := hplacing.stable h₃
      rcases completeKey_cases hput with ⟨⟨e, he⟩, -⟩ | ⟨row, hrow, -, -, rfl⟩
      · cases he
      · have hheld : Holds s₃ i c.1 c.2 := hplacing₃.holds
        rw [Versions.seen_of_own (show s₃.keys.own i (claimedFor c).key = _ from hheld.own)] at hrow
        obtain rfl := Option.some.inj hrow
        refine fun t ht => Ready.stable ht ⟨d, ⟨hplacing₃.draft, hplacing₃.prepared, ?_⟩, rfl, rfl⟩
        exact ⟨fun k hk => (Versions.own_put_of_ne hk).trans (hheld.only k hk),
          Versions.own_put_self, hheld.expired⟩

theorem obeys_placeInTx (hprep : request.prepare host = .ok idem) (hc : Clean i s) :
    (checkoutContract host ids).Obeys i (Reaches (Ready host i request))
      (CheckoutCall.placeInTx request idem) s := by
  cases idem with
  | none =>
      refine obeys_clock (fun _ _ _ => trivial) fun now t ht => ?_
      exact obeys_write none hprep (hc.stable ht).draft (hc.stable ht).keys rfl
  | some p =>
      refine Contract.Obeys.bind (Contract.Obeys.bind (Contract.Obeys.mono (fun r t hr => ?_)
        (obeys_claim (p := p) hc)))
      cases r with
      | error e => trivial
      | ok c =>
          obtain ⟨hholds, hdraft, hclaimed⟩ := hr
          refine fun u hu => obeys_clock (fun _ _ _ => trivial) fun now v hv => ?_
          have hrely := hu.trans hv
          exact obeys_write (some c) hprep (hrely.draft.trans hdraft)
            (Holds.stable hrely hholds) (congrArg some hclaimed)

/-- What a transaction that has committed leaves. -/
abbrev Stands (i : TxId) (request : PlaceCall) (body : PlacedOrder) (s : CheckoutDesk) : Prop :=
  Clean i s ∧ ∃ d ∈ s.placed, d.call = request ∧ body = toPlacedOrder d.order

theorem Stands.stable {body : PlacedOrder} (h : Rely i s t) (hs : Stands i request body s) :
    Stands i request body t := by
  obtain ⟨hc, d, hd, hrest⟩ := hs
  exact ⟨hc.stable h, d, h.placed.subset hd, hrest⟩

/-- A commit has nothing in hand afterwards, whatever came of it. -/
theorem commit_clean {d : Draft} {r : Except Fault Unit} (hd : s.drafts i = some d)
    (h : s.commit host i = (r, t)) : Clean i t := by
  rcases commit_cases hd h with ⟨-, rfl⟩ | ⟨store, -, -, rfl⟩
  · exact rollback_clean
  · exact settled_clean

theorem obeys_commit {body : PlacedOrder} (hr : Ready host i request body s) :
    (checkoutContract host ids).Obeys i (Contract.Ends (Stands i request) (Clean i)) (do
      CheckoutCall.run .commit
      return body) s := by
  have hpre : checkoutPre host i .commit s := by
    obtain ⟨d, hplacing, -⟩ := hr
    exact ⟨d, hplacing⟩
  refine Contract.Obeys.perform hpre (fun s₁ x a s₂ h₁ _ h => ?_) fun s₁ x e s₂ h₁ _ h t ht => ?_
  · obtain ⟨d, hplacing, hcall, hbody⟩ := hr.stable h₁
    rcases exec_cases h with ⟨e, he, -⟩ | hperform
    · cases he
    rcases commit_cases hplacing.draft (Option.some.inj hperform) with
      ⟨⟨e, he⟩, -⟩ | ⟨store, -, -, rfl⟩
    · cases he
    exact fun t ht => Stands.stable ht ⟨settled_clean, d, List.mem_cons_self, hcall, hbody⟩
  · obtain ⟨d, hplacing, -⟩ := hr.stable h₁
    refine Clean.stable ht ?_
    rcases exec_cases h with ⟨e, -, rfl⟩ | hperform
    · by_cases hlost : x.lost = true
      · rw [CheckoutOp.dropped, if_pos hlost]
        exact commit_clean hplacing.draft (r := (s₁.commit host i).1) rfl
      · rw [CheckoutOp.dropped, if_neg hlost]
        exact rollback_clean
    · exact commit_clean hplacing.draft (Option.some.inj hperform)

theorem exec_rollback (host : CheckoutHost) (x : CheckoutInput) :
    CheckoutOp.exec host i .rollback x s = some (.ok (), s.rollback i) := by
  unfold CheckoutOp.exec
  cases x.fault <;> rfl

theorem obeys_rollback {e : Fault} :
    (checkoutContract host ids).Obeys i (Contract.Ends (Stands i request) (Clean i)) (do
      CheckoutCall.run .rollback
      Prog.throw e) s := by
  refine Contract.Obeys.perform trivial (fun s₁ x a s₂ _ _ h => ?_) fun s₁ x e s₂ _ _ h t ht => ?_
  · obtain ⟨-, rfl⟩ := Prod.mk.inj (Option.some.inj ((exec_rollback host x).symm.trans h))
    exact fun t ht => Clean.stable ht rollback_clean
  · cases (exec_rollback host x).symm.trans h

theorem obeys_tx (hprep : request.prepare host = .ok idem) (hc : Clean i s) :
    (checkoutContract host ids).Obeys i (Contract.Ends (Stands i request) (Clean i))
      (CheckoutCall.tx (CheckoutCall.placeInTx request idem)) s := by
  unfold CheckoutCall.tx
  refine Contract.Obeys.bind (Contract.Obeys.catching (Contract.Obeys.mono (fun r u hr => ?_)
    (obeys_placeInTx hprep hc)))
  cases r with
  | ok body => exact obeys_commit hr
  | error e => exact obeys_rollback

/-- What a placement comes to. -/
abbrev Told (host : CheckoutHost) (i : TxId) (request : PlaceCall) :
    Except Fault PlaceAnswer → CheckoutDesk → Prop :=
  Contract.Ends (fun answer s => Answered host request s answer) (Clean i)

/-- A call that finds its answer gives it, another one goes on. -/
theorem obeys_known {f : Option PlaceAnswer → CheckoutCall PlaceAnswer}
    (hprep : request.prepare host = .ok idem) (hc : Clean i s)
    (hsome : ∀ answer, f (some answer) = pure answer)
    (hnone : ∀ t, Clean i t → (checkoutContract host ids).Obeys i (Told host i request) (f none) t) :
    (checkoutContract host ids).Obeys i (Told host i request) (CheckoutCall.replay idem >>= f)
      s := by
  refine Contract.Obeys.bind (Contract.Obeys.mono (fun r t hr => ?_) (obeys_replay hprep hc))
  cases r with
  | error e => exact hr
  | ok a =>
      obtain ⟨hclean, hanswered⟩ := hr
      cases a with
      | none => exact hnone t hclean
      | some answer =>
          show (checkoutContract host ids).Obeys i _ (f (some answer)) t
          rw [hsome]
          exact fun u hu => (hanswered answer rfl).stable hu

theorem obeys_place (hc : Clean i s) :
    (checkoutContract host ids).Obeys i (Told host i request) (CheckoutCall.place host request)
      s := by
  unfold CheckoutCall.place
  cases hprep : request.prepare host with
  | error e => exact fun t ht => hc.stable ht
  | ok idem =>
      refine obeys_known hprep hc (fun _ => rfl) fun t ht => ?_
      refine Contract.Obeys.tryCatch (Contract.Obeys.bind (Contract.Obeys.mono (fun r u hr => ?_)
        (withRetry_obeys (P := Clean i) (R := Stands i request) (fun u hu => obeys_tx hprep hu)
          (fun _ _ hrely hclean => Clean.stable hrely hclean) 3 t ht)))
      cases r with
      | ok body =>
          obtain ⟨-, d, hd, hcall, rfl⟩ := hr
          exact fun v hv => Answered.stable hv (.placed hd hcall)
      | error err =>
          show (checkoutContract host ids).Obeys i _ (if _ then _ else _) u
          split
          · exact obeys_known hprep hr (fun _ => rfl) fun v hv w hw => hv.stable hw
          · exact fun v hv => Clean.stable hv hr

/-- What a thread ends with. -/
def Promised (host : CheckoutHost) (i : TxId) :
    Except Fault (Option (PlaceCall × PlaceAnswer)) → CheckoutDesk → Prop
  | .ok (some served), s => Answered host served.1 s served.2
  | .ok none, _ => True
  | .error _, s => Clean i s

theorem obeys_body (request : CheckoutRequest) (hc : Clean i s) :
    (checkoutContract host ids).Obeys i (Promised host i) (request.body host) s := by
  cases request with
  | place request =>
      refine Contract.Obeys.bind (Contract.Obeys.mono (fun r t hr => ?_) (obeys_place hc))
      cases r with
      | ok answer => exact fun u hu => Answered.stable hu hr
      | error e => exact hr
  | others store =>
      exact obeys_run (by simp) trivial (fun _ _ ht => hc.stable ht)
        fun _ _ _ _ _ _ _ _ _ => trivial

end programs

/-! ### Every interleaving -/

/-- The call of a thread that has ended with an answer, and the answer. -/
def served (w : CheckoutWorld) (i : TxId) : Option (PlaceCall × PlaceAnswer) :=
  match w.threads[i]? with
  | some (.pure served) => served
  | _ => none

theorem served_thread {w : CheckoutWorld} {r : PlaceCall × PlaceAnswer} (h : served w i = some r) :
    w.threads[i]? = some (.pure (some r)) := by
  unfold served at h
  split at h
  next hthread => rw [hthread, h]
  next => cases h

/-- Before the first request. -/
def opening (store : Store) : CheckoutDesk where
  keys := Versions.ofRows fun _ => none
  store
  drafts _ := none

theorem opening_kept (store : Store) :
    (checkoutContract host (store.orders.map (·.id))).Kept (Promised host)
      ({ state := opening store } : CheckoutWorld) := by
  refine ⟨⟨⟨?_, fun _ => List.isChain_nil⟩, fun _ => rfl, fun d hd => by cases hd⟩,
    fun i p hp => by simp at hp, fun i _ => ⟨fun _ => rfl, rfl⟩⟩
  exact (List.append_nil _).symm

section oneKey

/-- Every request is for one book on delivery. -/
def bookHost : CheckoutHost where
  sha256 := id
  read _ := eidCart.order codForm
  userId _ := "shopper"
  userId_line _ := by decide
  target
    | .database _ message => message
    | _ => ""

def guestCheckout : PlaceCall where
  dto := ⟨.null, .null⟩
  ctx := { idempotencyKey := some "checkout-1" }

/-- The request is sent twice at once, the answer of the first commit is lost, and it is sent
again. -/
def askedThrice : List (Act CheckoutRequest CheckoutInput) :=
  let go (i : ℕ) : Act CheckoutRequest CheckoutInput := .run i { now := 1, shop := bookShop }
  [.start (.place guestCheckout), .start (.place guestCheckout), go 0, go 1,
   go 0, go 0, go 0, go 0, go 1, go 1, go 1, go 0, go 0, go 0,
   .run 0 { fault := some (.error "connection lost"), lost := true },
   go 1, go 1, go 1, go 1, .start (.place guestCheckout), go 2, go 2]

end oneKey

/-! ### Whose answer it is -/

theorem scope_line (request : PlaceCall) : (0x0A : UInt16) ∉ js request.scope := by
  unfold PlaceCall.scope
  split <;> decide

theorem caller_line (host : CheckoutHost) (request : PlaceCall) :
    (0x0A : UInt16) ∉ js (request.caller host) := by
  refine line_not_mem_js ?_
  unfold PlaceCall.caller
  cases request.ctx.user with
  | some user => exact host.userId_line user.id
  | none =>
      cases request.ctx.cart with
      | none => exact show '\n' ∉ ("guest" : String).toList by decide
      | some owner =>
          cases owner with
          | customer id => exact show '\n' ∉ ("guest" : String).toList by decide
          | guest token =>
              rw [String.toList_append, List.mem_append, not_or]
              refine ⟨by decide, fun hmem => ?_⟩
              have hchar := List.all_eq_true.mp token.chars '\n' hmem
              exact absurd hchar (by decide)

/-- A request that is known as something is known by its key, its scope, its caller and its
body. -/
theorem prepare_some {request : PlaceCall} {p : Prepared}
    (h : request.prepare host = .ok (some p)) :
    p.scope = request.scope ∧ p.hash = hashRequest host.sha256 (js request.scope)
      (js (request.caller host)) request.dto.value := by
  unfold PlaceCall.prepare at h
  split at h
  · cases h
  obtain ⟨q, hq, heq⟩ := Result.map_ok.mp h
  obtain rfl := Option.some.inj heq
  unfold IdempotencyService.prepare at hq
  split at hq
  · cases hq
  · obtain rfl := Except.ok.inj hq
    exact ⟨rfl, rfl⟩

/-- **Nobody gets another's order**, and nobody the order of another request: the answer is that
of an order which was placed on the same side of the shop, by the same caller, for the same
body. -/
theorem place_answers_own (host : CheckoutHost) (hsha : Function.Injective host.sha256)
    (store : Store) (as : List (Act CheckoutRequest CheckoutInput)) (w : CheckoutWorld)
    (hrun : Machine.runFrom (checkoutStep host) { state := opening store } as = some w)
    (i : TxId) (request : PlaceCall) (answer : PlaceAnswer)
    (hserved : served w i = some (request, answer)) :
    ∃ d ∈ w.state.placed, answer.body = some (toPlacedOrder d.order) ∧
      d.call.scope = request.scope ∧ d.call.caller host = request.caller host ∧
      SameBody d.call.dto.value request.dto.value := by
  have hkept := Contract.Kept.run (fun request i s _ hc => obeys_body request hc) as
    (opening_kept store) hrun
  have hanswered : Answered host request w.state answer :=
    hkept.threads i _ (served_thread hserved) w.state Rely.refl
  have hself : ∀ b b' : JsonBody, stableStringify b.value = stableStringify b'.value →
      SameBody b.value b'.value := fun b b' =>
    (cut_stableStringify b.value b'.value b.wellFormed b'.wellFormed).self
  cases hanswered with
  | @placed d hd hcall =>
      subst hcall
      exact ⟨d, hd, rfl, rfl, rfl, hself _ _ rfl⟩
  | @again d p hd hplaced hrequest =>
      obtain ⟨-, hhash⟩ := prepare_some hplaced
      obtain ⟨-, hhash'⟩ := prepare_some hrequest
      have htext := hsha (hhash.symm.trans hhash')
      obtain ⟨hscope, hcaller, hbody⟩ := (requestText_inj (scope_line d.call)
        (caller_line host d.call) (scope_line request) (caller_line host request)).mp htext
      exact ⟨d, hd, rfl, js_injective hscope, js_injective hcaller, hself _ _ hbody⟩

theorem place_answers_own_askedThrice : ∃ w : CheckoutWorld,
    Machine.runFrom (checkoutStep bookHost) { state := opening (couponDay []) } askedThrice =
      some w ∧ ∃ request answer, served w 2 = some (request, answer) ∧
        ∃ d ∈ w.state.placed, answer.body = some (toPlacedOrder d.order) ∧
          d.call.caller bookHost = request.caller bookHost := by
  have hruns : (Machine.runFrom (checkoutStep bookHost) { state := opening (couponDay []) }
      askedThrice).any (fun w => (served w 2).isSome) = true := by decide +kernel
  obtain ⟨w, hw, hend⟩ := (Option.any_eq_true _ _).mp hruns
  obtain ⟨r, hr⟩ := Option.isSome_iff_exists.mp hend
  obtain ⟨d, hd, hbody, -, hcaller, -⟩ := place_answers_own bookHost (fun _ _ h => h)
    (couponDay []) askedThrice w hw 2 r.1 r.2 hr
  exact ⟨w, hw, r.1, r.2, hr, d, hd, hbody, hcaller⟩

end CheckoutDesk

end BookHouse
