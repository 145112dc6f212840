/-
A customer with an address has one default.

The index says that there is at most one.  That there is one is kept by every call, and each
call goes through the same middle state: the customer has no default, everybody else is served.
From there setting a mark breaks no index, and the customer is served again.
-/
import BookHouse.Customers.AddressBook
import BookHouse.Lib.Machine

namespace BookHouse

open IndexedTable Marks Result

/-- One default where there is a live address, and none on a deleted one. -/
structure OneDefault (book : AddressBook) : Prop where
  one : ∀ c, (liveAddresses book c).countP (·.isDefault) =
    if liveAddresses book c = [] then 0 else 1
  retired : ∀ a ∈ book.rows, a.deletedAt.isSome → a.isDefault = false

/-- The customer has a default, if a live address. -/
abbrev HasDefault (c : CustomerId) (rows : List CustomerAddress) : Prop :=
  Served CustomerAddress.customerId (·.deletedAt.isNone) CustomerAddress.isDefault c rows

/-- What the calls keep. -/
structure Defaulted (rows : List CustomerAddress) : Prop where
  served : ∀ c, HasDefault c rows
  retired : ∀ a ∈ rows, a.deletedAt.isSome → a.isDefault = false

/-- In the middle of a call: the customer has no default. -/
structure DefaultCleared (c : CustomerId) (rows : List CustomerAddress) : Prop where
  cleared : Cleared CustomerAddress.customerId (·.deletedAt.isNone) CustomerAddress.isDefault c rows
  retired : ∀ a ∈ rows, a.deletedAt.isSome → a.isDefault = false

variable {book book' : AddressBook} {rows : List CustomerAddress} {c : CustomerId}
  {a b : CustomerAddress}

/-! ### The indexes -/

theorem defaultIndex_clash : defaultIndex.clash a b = true ↔
    (a.deletedAt.isNone ∧ a.isDefault) ∧ (b.deletedAt.isNone ∧ b.isDefault) ∧
      a.customerId = b.customerId := by
  simp [defaultIndex, UniqueIndex.on, and_assoc, and_left_comm]

/-- The mark of an address is the one the index is about. -/
theorem addressMark : OnePerGroup CustomerAddress.customerId (·.deletedAt.isNone)
    CustomerAddress.isDefault addressIndexes oneDefault := by
  intro ix hix he a b
  rcases List.mem_cons.mp hix with rfl | hix
  · simp [UniqueIndex.on, oneDefault] at he
  · obtain rfl := List.mem_singleton.mp hix
    exact defaultIndex_clash

theorem addressIds_ne (book : AddressBook) : book.rows.Pairwise fun a b => a.id ≠ b.id :=
  (clash_of_mem (t := book) List.mem_cons_self).imp fun h => by simpa [UniqueIndex.on] using h

theorem oneById (book : AddressBook) (id : AddressId) : book.rows.Pairwise fun a b =>
    ¬(decide (a.id = id) = true ∧ decide (b.id = id) = true) :=
  (addressIds_ne book).imp fun hne hboth =>
    hne ((of_decide_eq_true hboth.1).trans (of_decide_eq_true hboth.2).symm)

theorem defaults_ne (book : AddressBook) : book.rows.Pairwise fun a b =>
    ¬((a.customerId = c ∧ a.deletedAt.isNone ∧ a.isDefault) ∧
      (b.customerId = c ∧ b.deletedAt.isNone ∧ b.isDefault)) := by
  have hindex : defaultIndex ∈ addressIndexes := by simp [addressIndexes]
  have hclash := clash_of_mem (t := book) hindex
  refine hclash.imp fun {a b} h hab => ?_
  rw [defaultIndex_clash.mpr ⟨hab.1.2, hab.2.2, hab.1.1.trans hab.2.1.symm⟩] at h
  cases h

theorem address_eq_of_id (ha : a ∈ book.rows) (hb : b ∈ book.rows) (h : a.id = b.id) : a = b := by
  have hnd : (book.rows.map (·.id)).Nodup := List.pairwise_map.mpr (addressIds_ne book)
  exact List.inj_on_of_nodup_map hnd ha hb h

/-! ### One default is what the calls keep -/

theorem mem_liveAddresses : a ∈ liveAddresses book c ↔
    a ∈ book.rows ∧ a.customerId = c ∧ a.deletedAt = none := by
  simp [liveAddresses]

theorem oneDefault_iff : OneDefault book ↔ Defaulted book.rows := by
  have hnil : ∀ d, (book.rows.any fun r => decide (r.customerId = d) && r.deletedAt.isNone) =
      !decide (liveAddresses book d = []) := fun d => by
    rw [Bool.eq_iff_iff]
    simp [liveAddresses, List.filter_eq_nil_iff]
  constructor
  · intro h
    refine ⟨fun d hex => ?_, h.retired⟩
    obtain ⟨a, ha, hd, hlive⟩ := hex
    have hmem : a ∈ liveAddresses book d :=
      mem_liveAddresses.mpr ⟨ha, hd, Option.isNone_iff_eq_none.mp hlive⟩
    have hone := h.one d
    rw [if_neg (List.ne_nil_of_mem hmem)] at hone
    obtain ⟨x, hx, hdef⟩ := List.countP_pos_iff.mp (hone ▸ Nat.one_pos)
    obtain ⟨hrows, hxd, hxlive⟩ := mem_liveAddresses.mp hx
    exact ⟨x, hrows, hxd, Option.isNone_iff_eq_none.mpr hxlive, hdef⟩
  · intro h
    refine ⟨fun d => ?_, h.retired⟩
    have hcount := (h.served d).countP (defaults_ne book)
    have hfilter : (liveAddresses book d).countP (·.isDefault) = book.rows.countP fun r =>
        r.customerId = d && (r.deletedAt.isNone && r.isDefault) := by
      rw [liveAddresses, List.countP_filter]
      exact List.countP_congr fun r _ => by simp [and_comm, and_left_comm]
    rw [hfilter, hcount, hnil]
    by_cases hlive : liveAddresses book d = []
    · simp [hlive]
    · simp [hlive]

/-! ### The middle of a call -/

/-- An update that takes no address back from deletion keeps deleted ones plain. -/
theorem retired_rewrite {p : CustomerAddress → Bool} {f : CustomerAddress → CustomerAddress}
    (h : ∀ a ∈ rows, a.deletedAt.isSome → a.isDefault = false)
    (hf : ∀ a ∈ rows, p a → (f a).deletedAt.isSome → (f a).isDefault = false) :
    ∀ a ∈ rows.map (rewrite p f), a.deletedAt.isSome → a.isDefault = false := by
  intro x hx hdel
  obtain ⟨a, ha, rfl⟩ := List.mem_map.mp hx
  by_cases hp : p a
  · rw [rewrite_of_pos hp] at hdel ⊢
    exact hf a ha hp hdel
  · rw [rewrite_of_neg hp] at hdel ⊢
    exact h a ha hdel

/-- Taking the mark off all of the customer's addresses; the rows stay. -/
theorem clearDefault_spares (h : Defaulted book.rows) :
    Spares oneDefault (fun book' => DefaultCleared c book'.rows ∧
        ∀ a ∈ book.rows, ∃ b ∈ book'.rows, b.id = a.id ∧ b.customerId = a.customerId ∧
          b.deletedAt = a.deletedAt)
      (MeService.clearDefault book c) := by
  refine (clear_spares (k := c) (f := fun a => { a with isDefault := false }) addressMark h.served
    (fun r => ?_) fun r => ⟨rfl, rfl, rfl⟩).mono fun book' hbook' => ?_
  · simp [and_assoc, and_comm, and_left_comm]
  · obtain ⟨hrows, hcleared⟩ := hbook'
    refine ⟨⟨hcleared, ?_⟩, fun a ha => ?_⟩
    · rw [hrows]
      exact retired_rewrite h.retired fun _ _ _ _ => rfl
    · obtain ⟨b, hb, rfl | rfl⟩ := exists_rewrite ha hrows
      · exact ⟨_, hb, rfl, rfl, rfl⟩
      · exact ⟨_, hb, rfl, rfl, rfl⟩

/-- Setting the mark of one of the customer's addresses. -/
theorem setMark_spares {f : CustomerAddress → CustomerAddress} (h : DefaultCleared c book.rows)
    (ha : a ∈ book.rows) (hc : a.customerId = c) (hlive : a.deletedAt = none)
    (hid : (f a).customerId = a.customerId) (hdel : ∀ x, (f x).deletedAt = x.deletedAt)
    (hmark : (f a).isDefault = true) :
    Spares oneDefault (fun book' => Defaulted book'.rows)
      (book.update (fun x => x.id = a.id) f) := by
  refine (mark_spares addressMark h.cleared (oneById book a.id) ha (decide_eq_true rfl) hc
    ⟨hid.trans hc, by simp [hdel, hlive], hmark⟩).mono fun book' hbook' => ⟨hbook'.2, ?_⟩
  rw [hbook'.1]
  refine retired_rewrite h.retired fun x hx hxa hxdel => ?_
  obtain rfl := address_eq_of_id hx ha (of_decide_eq_true hxa)
  rw [hdel, hlive] at hxdel
  cases hxdel

/-- Writing other columns. -/
theorem patch_spares {p : CustomerAddress → Bool} {f : CustomerAddress → CustomerAddress}
    (h : Defaulted book.rows) (hid : ∀ x, (f x).customerId = x.customerId)
    (hdel : ∀ x, (f x).deletedAt = x.deletedAt) (hmark : ∀ x, (f x).isDefault = x.isDefault) :
    Spares oneDefault (fun book' => Defaulted book'.rows) (book.update p f) := by
  refine (keep_spares addressMark h.served fun x => ⟨hid x, by rw [hdel x], hmark x⟩).mono
    fun book' hbook' => ⟨hbook'.2, ?_⟩
  rw [hbook'.1]
  refine retired_rewrite h.retired fun x hx _ hxdel => ?_
  rw [hdel] at hxdel
  rw [hmark]
  exact h.retired x hx hxdel

/-- Deleting an address, which may be the default. -/
theorem retire_spares {now : Instant} (h : Defaulted book.rows) (ha : a ∈ book.rows)
    (hlive : a.deletedAt = none) :
    Spares oneDefault (fun book' => if a.isDefault then DefaultCleared a.customerId book'.rows else
        Defaulted book'.rows)
      (book.update (fun x => x.id = a.id)
        fun x => { x with deletedAt := some now, isDefault := false }) := by
  have hone : ∀ x ∈ book.rows, decide (x.id = a.id) = true → x = a := fun x hx hxa =>
    address_eq_of_id hx ha (of_decide_eq_true hxa)
  refine (update_spares_of_shrinks fun ix hix he x y hclash => ?_).mono fun book' hrows => ?_
  · rw [addressMark ix hix he] at hclash
    exact absurd hclash.1.2 Bool.false_ne_true
  · have hmem := fun y => mem_map_rewrite ha (decide_eq_true (rfl : a.id = a.id)) hone (y := y)
      (f := fun x => { x with deletedAt := some now, isDefault := false })
    rw [← hrows] at hmem
    have hretired : ∀ x ∈ book'.rows, x.deletedAt.isSome → x.isDefault = false := by
      rw [hrows]
      exact retired_rewrite h.retired fun _ _ _ _ => rfl
    -- the default of a customer is still there, unless it is the deleted address
    have hserved : ∀ d, (a.isDefault → d ≠ a.customerId) → HasDefault d book'.rows := by
      rintro d hd ⟨x, hx, hxd, hxlive⟩
      rcases (hmem x).mp hx with rfl | ⟨hx, -⟩
      · cases hxlive
      · obtain ⟨y, hy, hyd, hylive, hydef⟩ := h.served d ⟨x, hx, hxd, hxlive⟩
        refine ⟨y, (hmem y).mpr (.inr ⟨hy, fun hya => ?_⟩), hyd, hylive, hydef⟩
        obtain rfl := hone y hy hya
        exact hd hydef hyd.symm
    by_cases hdef : a.isDefault
    · rw [if_pos hdef]
      refine ⟨⟨fun d hd => hserved d fun _ => hd, fun x hx hxc hxlive => ?_⟩, hretired⟩
      rcases (hmem x).mp hx with rfl | ⟨hx, hxa⟩
      · rfl
      · -- a second default would break the index
        rw [← Bool.not_eq_true]
        intro hxdef
        have hne : x ≠ a := fun hc => hxa (by rw [hc]; exact decide_eq_true rfl)
        have hindex : defaultIndex ∈ addressIndexes := by simp [addressIndexes]
        have hclash := clash_of_ne hindex hx ha hne
        rw [defaultIndex_clash.mpr ⟨⟨hxlive, hxdef⟩, ⟨by simp [hlive], hdef⟩, hxc⟩] at hclash
        cases hclash
    · rw [if_neg hdef]
      exact ⟨fun d => hserved d fun hc => absurd hc hdef, hretired⟩

/-! ### The calls -/

theorem mustOwn_ok {id : AddressId} (h : MeService.mustOwn book c id = .ok a) :
    a ∈ book.rows ∧ a.id = id ∧ a.customerId = c ∧ a.deletedAt = none := by
  unfold MeService.mustOwn at h
  split at h
  next a' hfind =>
    obtain rfl := Except.ok.inj h
    have hp := List.find?_some hfind
    simp only [Bool.and_eq_true, decide_eq_true_eq, Option.isNone_iff_eq_none] at hp
    exact ⟨List.mem_of_find?_eq_some hfind, hp.1.1, hp.1.2, hp.2⟩
  next => cases h

theorem mustOwn_spares {id : AddressId} :
    Spares oneDefault (fun a => a ∈ book.rows ∧ a.id = id ∧ a.customerId = c ∧ a.deletedAt = none)
      (MeService.mustOwn book c id) := by
  cases h : MeService.mustOwn book c id with
  | ok a => exact mustOwn_ok h
  | error e =>
      unfold MeService.mustOwn at h
      split at h
      · cases h
      · obtain rfl := Except.error.inj h
        simp [Spares, oneDefault]

theorem customerId_spares (ctx : AddressContext) (user : AuthUser) :
    Spares oneDefault (fun _ => True) (MeService.customerId ctx user) := by
  unfold MeService.customerId
  repeat' split
  all_goals simp [Spares, oneDefault]

theorem phone_spares (input : String) :
    Spares oneDefault (fun _ => True) (MeService.phone input) := by
  unfold MeService.phone
  split
  · trivial
  · simp [Spares, oneDefault]

theorem checkDistrict_spares (ctx : AddressContext) (id : ℕ) :
    Spares oneDefault (fun _ => True) (MeService.checkDistrict ctx id) := by
  unfold MeService.checkDistrict
  split
  · trivial
  · simp [Spares, oneDefault]

theorem retired_append (h : ∀ x ∈ rows, x.deletedAt.isSome → x.isDefault = false)
    (hlive : a.deletedAt = none) :
    ∀ x ∈ rows ++ [a], x.deletedAt.isSome → x.isDefault = false := by
  intro x hx hdel
  rcases List.mem_append.mp hx with hx | hx
  · exact h x hx hdel
  · obtain rfl := List.mem_singleton.mp hx
    rw [hlive] at hdel
    cases hdel

theorem addAddress_spares (h : Defaulted book.rows) (ctx : AddressContext) (user : AuthUser)
    (dto : AddressDto) :
    Spares oneDefault (fun r => Defaulted r.1.rows) (MeService.addAddress ctx book user dto) := by
  unfold MeService.addAddress
  refine (customerId_spares ctx user).bind fun c _ => (phone_spares _).bind fun phone _ =>
    (checkDistrict_spares ctx _).bind fun _ _ => ?_
  dsimp only
  split
  · simp [Spares, oneDefault]
  · by_cases hmake : (dto.isDefault = some true || (liveAddresses book c).length = 0) = true
    · -- the mark is cleared, and the new row has it
      rw [if_pos hmake]
      refine (clearDefault_spares h).bind fun book₁ hclear => ?_
      refine (insert_marked_spares addressMark hclear.1.cleared rfl hmake).bind fun book₂ h₂ => ?_
      refine ⟨h₂.2, ?_⟩
      rw [h₂.1]
      exact retired_append hclear.1.retired rfl
    · -- the customer has an address, and with it a default
      rw [if_neg hmake]
      have hne : liveAddresses book c ≠ [] := fun hnil => hmake (by simp [hnil])
      obtain ⟨b, hb⟩ := List.exists_mem_of_ne_nil _ hne
      obtain ⟨hmem, hc, hlive⟩ := mem_liveAddresses.mp hb
      refine (insert_plain_spares addressMark h.served (by simpa using hmake)
        ⟨b, hmem, hc, Option.isNone_iff_eq_none.mpr hlive⟩).bind fun book₂ h₂ => ?_
      refine ⟨h₂.2, ?_⟩
      rw [h₂.1]
      exact retired_append h.retired rfl

theorem updateAddress_spares (h : Defaulted book.rows) (ctx : AddressContext) (user : AuthUser)
    (id : AddressId) (dto : UpdateAddressDto) :
    Spares oneDefault (fun r => Defaulted r.1.rows)
      (MeService.updateAddress ctx book user id dto) := by
  have hdistrict : Spares oneDefault (fun _ => True)
      (dto.districtId.forM (MeService.checkDistrict ctx)) := by
    cases dto.districtId with
    | none => trivial
    | some d => exact checkDistrict_spares ctx d
  have hphone : Spares oneDefault (fun _ => True)
      ((dto.phone.filter (· ≠ "")).mapM MeService.phone) := by
    cases dto.phone.filter (· ≠ "") with
    | none => trivial
    | some p => exact (phone_spares p).map fun _ _ => trivial
  unfold MeService.updateAddress
  refine (customerId_spares ctx user).bind fun c _ => hdistrict.bind fun _ _ =>
    mustOwn_spares.bind fun a ha => ?_
  obtain ⟨hmem, rfl, hc, hlive⟩ := ha
  by_cases hset : dto.isDefault = some true
  · rw [if_pos hset]
    refine (clearDefault_spares h).bind fun book₁ hclear => hphone.bind fun phone _ => ?_
    obtain ⟨b, hb, hid, hbc, hbdel⟩ := hclear.2 a hmem
    have hmark := setMark_spares (f := MeService.patch dto phone) hclear.1 hb (hbc.trans hc)
      (hbdel.trans hlive) rfl (fun _ => rfl) (by simp [MeService.patch, hset])
    rw [hid] at hmark
    exact hmark.bind fun book₂ h₂ => h₂
  · rw [if_neg hset]
    refine hphone.bind fun phone _ => ?_
    have hkeep : ∀ x, (MeService.patch dto phone x).isDefault = x.isDefault := fun x => by
      simp [MeService.patch, hset]
    exact (patch_spares (f := MeService.patch dto phone) h (fun _ => rfl) (fun _ => rfl) hkeep).bind
      fun book₁ h₁ => h₁

theorem deleteAddress_spares (h : Defaulted book.rows) (ctx : AddressContext) (user : AuthUser)
    (id : AddressId) :
    Spares oneDefault (fun book' => Defaulted book'.rows)
      (MeService.deleteAddress ctx book user id) := by
  unfold MeService.deleteAddress
  refine (customerId_spares ctx user).bind fun c _ => mustOwn_spares.bind fun a ha => ?_
  obtain ⟨hmem, rfl, hc, hlive⟩ := ha
  refine (retire_spares h hmem hlive).bind fun book₁ h₁ => ?_
  by_cases hdef : a.isDefault
  · rw [if_pos hdef] at h₁ ⊢
    rw [hc] at h₁
    split
    next next hnext =>
      have hlive' := mem_liveAddresses.mp (ctx.newestFirst.mem_of_head hnext)
      exact setMark_spares h₁ hlive'.1 hlive'.2.1 hlive'.2.2 rfl (fun _ => rfl) rfl
    next hnone =>
      have hnil := ctx.newestFirst.eq_nil_of_head hnone
      refine ⟨h₁.cleared.all_served fun hex => ?_, h₁.retired⟩
      obtain ⟨b, hb, hbc, hblive⟩ := hex
      have hb' : b ∈ liveAddresses book₁ c :=
        mem_liveAddresses.mpr ⟨hb, hbc, Option.isNone_iff_eq_none.mp hblive⟩
      rw [hnil] at hb'
      cases hb'
  · rw [if_neg hdef] at h₁ ⊢
    exact h₁

/-- **What a call leaves, and that the index never refuses it.** -/
theorem AddressCall.run_spares (h : Defaulted book.rows) (ctx : AddressContext)
    (call : AddressCall) :
    Spares oneDefault (fun book' => Defaulted book'.rows) (call.run ctx book) := by
  cases call with
  | add user dto => exact (addAddress_spares h ctx user dto).map fun _ hr => hr
  | update user id dto => exact (updateAddress_spares h ctx user id dto).map fun _ hr => hr
  | setDefault user id => exact (updateAddress_spares h ctx user id _).map fun _ hr => hr
  | delete user id => exact deleteAddress_spares h ctx user id

theorem addressStep_defaulted (a : AddressContext × AddressCall) (h : Defaulted book.rows)
    (hstep : addressStep book a = some book') : Defaulted book'.rows :=
  (a.2.run_spares h a.1).ok (toOption_some.mp hstep)

/-- **Every sequence of calls leaves each customer with one default.** -/
theorem addresses_defaulted (as : List (AddressContext × AddressCall)) (h : OneDefault book)
    (hrun : Machine.runFrom addressStep book as = some book') :
    OneDefault book' ∧ ∀ ctx call, AddressCall.run ctx book' call ≠ .error oneDefault := by
  have hend : Defaulted book'.rows :=
    Machine.runFrom_invariant (fun s a s' hs ha => addressStep_defaulted a hs ha) as book book'
      (oneDefault_iff.mp h) hrun
  exact ⟨oneDefault_iff.mpr hend, fun ctx call => (call.run_spares hend ctx).ne⟩

end BookHouse
