/-
Which queued messages can be rendered.

A template fails only on a field it requires, so what has to be known of a sender is that
those fields are there and not empty.  A number the counter gives out ends in digits, and a
title and a slug stay non-empty through every way a row is named (`Named.Reachable.filled`).
The invitation of a new member of the staff is the one message whose payload lacks a required
field, whatever is in the others.
-/
import BookHouse.Notifications.Producers

namespace BookHouse

open Templates

/-! ### Texts that are not empty -/

theorem repr_ne_empty (n : ℕ) : toString n ≠ "" := by
  rw [Nat.toString_eq_ofList_toDigits, ne_eq, String.ofList_eq_empty_iff]
  exact Nat.toDigits_ne_nil

theorem orderNoOf_ne (counter : DocumentCounter) : orderNoOf counter ≠ "" := by
  unfold orderNoOf padNo
  intro h
  exact repr_ne_empty _ (String.append_eq_empty_iff.mp h).2

theorem trimmed_ne {value : Option String} {v : String} (h : trimmed value = some v) : v ≠ "" := by
  have := (Option.filter_eq_some_iff.mp h).2
  simpa using this

/-- A cut that has room for one character keeps the first. -/
theorem cut_ne {n : ℕ} (hn : 2 ≤ n) {text : String} (h : text ≠ "") : cut n text ≠ "" := by
  unfold cut
  rw [ne_eq, String.ofList_eq_empty_iff]
  cases hl : text.toList with
  | nil => exact absurd (String.toList_eq_nil_iff.mp hl) h
  | cons c rest =>
      have hfits : (utf16 c).length ≤ n := by
        unfold utf16
        split
        · simp only [List.length_singleton]
          omega
        · simpa using hn
      simp [cut.go, hfits]

namespace Slug

theorem slugBase_ne {slugify : String → String} {input fallback : String} {maxLength : ℕ}
    (h : fallback ≠ "") : slugBase slugify input fallback maxLength ≠ "" := by
  unfold slugBase
  dsimp only
  split
  · exact h
  · assumption

theorem candidate_ne (base : String) (maxLength n : ℕ) : candidate base maxLength n ≠ "" := by
  unfold candidate
  intro h
  exact repr_ne_empty n (String.append_eq_empty_iff.mp (String.append_eq_empty_iff.mp h).2).2

theorem pickUniqueSlug_ne {base : String} (h : base ≠ "") {taken : List String} {maxLength : ℕ}
    (hmax : 2 ≤ maxLength) : pickUniqueSlug base taken maxLength ≠ "" := by
  unfold pickUniqueSlug
  dsimp only
  split
  · exact cut_ne hmax h
  · exact candidate_ne _ _ _

end Slug

theorem unique_ne (slugify : String → String) (scope : SlugScope) (source : String)
    (taken : List String) : SlugService.unique slugify scope source taken ≠ "" := by
  have hfallback : scope.name ≠ "" := by cases scope <;> decide
  exact Slug.pickUniqueSlug_ne (Slug.slugBase_ne hfallback) (Nat.le_of_ble_eq_true rfl)

/-- Neither name is empty. -/
structure Named.Filled (n : Named) : Prop where
  title : n.title ≠ ""
  slug : n.slug ≠ ""

theorem getD_ne {value : Option String} {v : String} (hv : v ≠ "") :
    (trimmed value).getD v ≠ "" := by
  cases h : trimmed value with
  | none => exact hv
  | some w => exact trimmed_ne h

/-- **A row keeps a title and a slug however it is named.** -/
theorem Named.Reachable.filled {slugify : String → String} {n : Named}
    (h : n.Reachable slugify) : n.Filled := by
  induction h with
  | create h =>
      obtain ⟨title, htitle, rfl⟩ := Option.map_eq_some_iff.mp h
      exact ⟨trimmed_ne htitle, getD_ne (unique_ne _ _ _ _)⟩
  | update dto _ ih => exact ⟨getD_ne ih.title, getD_ne ih.slug⟩
  | duplicate taken _ ih =>
      refine ⟨cut_ne (by decide) fun hc => ?_, unique_ne _ _ _ _⟩
      exact ih.title (String.append_eq_empty_iff.mp hc).1

/-! ### What a template asks of its payload -/

namespace Templates

/-- The fields are there and not empty. -/
def Covers (p : Payload) (keys : List String) : Prop := ∀ k ∈ keys, (given p k).isSome

variable {p : Payload} {keys : List String}

theorem req_of_covers (h : Covers p keys) {k : String} (hk : k ∈ keys) :
    ∃ v, req p k = .ok v := by
  obtain ⟨v, hv⟩ := Option.isSome_iff_exists.mp (h k hk)
  exact ⟨PayloadValue.text v, by rw [req, hv]⟩

/-- A payload with these fields is all the template asks for. -/
def Requires (fn : Template) (keys : List String) : Prop :=
  ∀ p ctx, Covers p keys → ∃ r, fn p ctx = .ok r

theorem requires_orderPlaced : Requires orderPlaced ["orderNo", "total"] := by
  intro p ctx hp
  obtain ⟨no, hno⟩ := req_of_covers hp (k := "orderNo") (by simp)
  obtain ⟨total, htotal⟩ := req_of_covers hp (k := "total") (by simp)
  exact ⟨_, by rw [orderPlaced, hno, htotal]; rfl⟩

theorem requires_orderConfirmed : Requires orderConfirmed ["orderNo"] := by
  intro p ctx hp
  obtain ⟨no, hno⟩ := req_of_covers hp (k := "orderNo") (by simp)
  exact ⟨_, by rw [orderConfirmed, hno]; rfl⟩

theorem requires_orderShipped : Requires orderShipped ["orderNo"] := by
  intro p ctx hp
  obtain ⟨no, hno⟩ := req_of_covers hp (k := "orderNo") (by simp)
  exact ⟨_, by rw [orderShipped, hno]; rfl⟩

theorem requires_orderDelivered : Requires orderDelivered ["orderNo"] := by
  intro p ctx hp
  obtain ⟨no, hno⟩ := req_of_covers hp (k := "orderNo") (by simp)
  exact ⟨_, by rw [orderDelivered, hno]; rfl⟩

theorem requires_orderCancelled : Requires orderCancelled ["orderNo"] := by
  intro p ctx hp
  obtain ⟨no, hno⟩ := req_of_covers hp (k := "orderNo") (by simp)
  exact ⟨_, by rw [orderCancelled, hno]; rfl⟩

theorem requires_authPasswordReset : Requires authPasswordReset ["code"] := by
  intro p ctx hp
  obtain ⟨code, hcode⟩ := req_of_covers hp (k := "code") (by simp)
  exact ⟨_, by rw [authPasswordReset, hcode]; rfl⟩

theorem requires_wishlistRestocked : Requires wishlistRestocked ["title", "slug"] := by
  intro p ctx hp
  obtain ⟨title, htitle⟩ := req_of_covers hp (k := "title") (by simp)
  obtain ⟨slug, hslug⟩ := req_of_covers hp (k := "slug") (by simp)
  exact ⟨_, by rw [wishlistRestocked, htitle, hslug]; rfl⟩

/-- A template that finds one of its fields missing fails, whatever it found before. -/
theorem staffInvite_missing (ctx : RenderContext) (h : given p "email" = none) :
    ¬∃ r, staffInvite p ctx = .ok r := by
  rintro ⟨r, hr⟩
  have hemail : req p "email" = .error ⟨"template payload missing \"email\""⟩ := by
    rw [req, h]
    rfl
  cases hrole : req p "role" with
  | error e =>
      rw [staffInvite, hrole] at hr
      cases hr
  | ok role =>
      rw [staffInvite, hrole, hemail] at hr
      cases hr

theorem given_str {k v : String} (h : p.lookup k = some (.str v)) (hv : v ≠ "") :
    (given p k).isSome := by
  simp [given, h, hv]

theorem given_num {k : String} {v : ℚ} (h : p.lookup k = some (.num v)) : (given p k).isSome := by
  simp [given, h]

theorem covers_one {k : String} (h : (given p k).isSome) : Covers p [k] := by
  intro j hj
  obtain rfl := List.mem_singleton.mp hj
  exact h

theorem covers_two {j k : String} (hj : (given p j).isSome) (hk : (given p k).isSome) :
    Covers p [j, k] := by
  intro i hi
  simp only [List.mem_cons, List.not_mem_nil, or_false] at hi
  rcases hi with rfl | rfl
  · exact hj
  · exact hk

end Templates

/-! ### What each sender puts into its payload -/

section senders

variable (ctx : RenderContext)

/-- The message is rendered. -/
def OutboxMessage.Renders (m : OutboxMessage) : Prop :=
  ∃ r, render m.template m.payload ctx = .ok r

theorem toFixed2_ne (n : ℚ) : toFixed2 n ≠ "" := by
  unfold toFixed2
  dsimp only
  intro h
  have hpoint := (String.append_eq_empty_iff.mp (String.append_eq_empty_iff.mp h).1).2
  exact absurd hpoint (by decide)

theorem placedMessage_renders (counter : DocumentCounter) (name phone : String)
    (grandTotal : Money) (method : PaymentMethod) :
    (OrderPlacementService.placedMessage (orderNoOf counter) name phone grandTotal
      method).Renders ctx := by
  refine requires_orderPlaced _ ctx (covers_two ?_ ?_)
  · exact given_str rfl (orderNoOf_ne counter)
  · exact given_str rfl (toFixed2_ne grandTotal)

theorem onPlaced_renders (counter : DocumentCounter) (grandTotal : Money)
    (method : PaymentMethod) (o : CustomerSmsListener.TextedOrder) :
    (CustomerSmsListener.onPlaced (orderNoOf counter) grandTotal method o).Renders ctx := by
  refine requires_orderPlaced _ ctx (covers_two ?_ ?_)
  · exact given_str rfl (orderNoOf_ne counter)
  · exact given_num rfl

/-- Every status that is texted has its order's number, with or without a shipment. -/
theorem onStatus_renders {counter : DocumentCounter} {to_ : OrderStatus}
    {creditReason : Option String} {o : CustomerSmsListener.TextedOrder} {m : OutboxMessage}
    (h : CustomerSmsListener.onStatus (orderNoOf counter) to_ creditReason o = some m) :
    m.Renders ctx := by
  have hno : ∀ rest : Payload, Covers
      ([("name", .str o.contactName), ("orderNo", .str (orderNoOf counter))] ++ rest)
      ["orderNo"] := fun rest => covers_one (given_str rfl (orderNoOf_ne counter))
  unfold CustomerSmsListener.onStatus at h
  cases to_ <;> simp only [CustomerSmsListener.statusTemplate, Option.map_none, Option.map_some,
    reduceCtorEq, Option.some.injEq] at h <;> subst h
  · exact requires_orderConfirmed _ ctx (hno _)
  · exact requires_orderShipped _ ctx (hno _)
  · exact requires_orderDelivered _ ctx (hno _)
  · exact requires_orderCancelled _ ctx (hno _)

theorem restockedMessage_renders {itemId : String} {item : Named} (hitem : item.Filled)
    {kind : SlugScope} {c : WatchingCustomer} {m : OutboxMessage}
    (h : WishlistService.restockedMessage itemId item kind c = some m) : m.Renders ctx := by
  unfold WishlistService.restockedMessage at h
  split at h
  · cases h
  · obtain rfl := Option.some.inj h
    refine requires_wishlistRestocked _ ctx (covers_two ?_ ?_)
    · exact given_str rfl hitem.title
    · exact given_str rfl hitem.slug

theorem resetMessage_renders (user : User) (code : ℕ) :
    (AuthService.resetMessage user code).Renders ctx :=
  requires_authPasswordReset _ ctx (covers_one (given_str rfl (repr_ne_empty code)))

/-- The invitation says who it is for only in its address. -/
theorem inviteMessage_fails (userId email name : String) (role : UserRole) (temp : String) :
    ¬(StaffService.inviteMessage userId email name role temp).Renders ctx :=
  staffInvite_missing ctx rfl

end senders

/-- **A queued message can be rendered exactly when it is not the invitation of a new member of
the staff.** -/
theorem renders_iff (slugify : String → String) (s : Sending slugify) (ctx : RenderContext)
    (m : OutboxMessage) (h : s.message = some m) : m.Renders ctx ↔ s.isInvitation = false := by
  cases s with
  | place counter name phone grandTotal method =>
      obtain rfl := Option.some.inj h
      exact iff_of_true (placedMessage_renders ctx _ _ _ _ _) rfl
  | onPlaced counter grandTotal method order =>
      obtain rfl := Option.some.inj h
      exact iff_of_true (onPlaced_renders ctx _ _ _ _) rfl
  | onStatus counter to_ creditReason order => exact iff_of_true (onStatus_renders ctx h) rfl
  | notifyRestocked itemId item kind customer =>
      exact iff_of_true (restockedMessage_renders ctx item.property.filled h) rfl
  | forgotPassword user code =>
      obtain rfl := Option.some.inj h
      exact iff_of_true (resetMessage_renders ctx _ _) rfl
  | createStaff userId email name role temp =>
      obtain rfl := Option.some.inj h
      exact iff_of_false (inviteMessage_fails ctx _ _ _ _ _) (by simp [Sending.isInvitation])

section invited

/-- A support agent is added. -/
def agentInvited : Sending id :=
  .createStaff "u1" "rafi@example.com" "রাফি" .support "kT3mpPassw0rd"

/-- The shop's order 2042 over ৳1250 is placed. -/
def orderTexted : Sending id :=
  .place { scope := .order, pfx := "CLO-", nextValue := 2042, padding := 4 } "রাফি"
    "+8801711111111" 1250 .cod

theorem renders_iff_orderTexted : ∃ m, orderTexted.message = some m ∧
    (m.Renders { storeName := "চলো", webUrl := "https://cholo.test" } ↔
      orderTexted.isInvitation = false) :=
  ⟨_, rfl, renders_iff id orderTexted _ _ rfl⟩

theorem invitation_not_rendered : ¬∀ (slugify : String → String) (s : Sending slugify)
    (ctx : RenderContext) (m : OutboxMessage), s.message = some m → m.Renders ctx := by
  intro h
  exact inviteMessage_fails { storeName := "চলো", webUrl := "https://cholo.test" } _ _ _ _ _
    (h id agentInvited { storeName := "চলো", webUrl := "https://cholo.test" } _ rfl)

end invited

end BookHouse
