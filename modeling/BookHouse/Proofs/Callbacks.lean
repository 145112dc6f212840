/-
What moves a payment: the gateway's word, never a request body.

The log of the desk is read from its newest entry back.  Every move of a payment is
justified by what its own thread had in the log before it: a move to SUCCESS by an answer of
the validation API that is this payment's, and the closing of an open attempt, in a thread
whose body is unsigned or a duplicate, by an answer about this very tran_id.  Each operation
enters justified moves, since that is what a thread has to know before it.
-/
import BookHouse.Proofs.GatewayServices

namespace BookHouse

open Prog (Contract Act World)
open GatewayDesk Machine

/-- The statuses of an attempt that was not paid. -/
def isClosed : PaymentStatus → Bool
  | .failed | .cancelled | .expired => true
  | _ => false

variable {config : GatewayConfig} {i : ℕ} {s t : GatewayDesk}

theorem Confirms.congr {host : Host} {p q : Payment} {v : SslValidation}
    (h : Confirms host p v) (heq : q.terms = p.terms) : Confirms host q v := by
  have htran : q.tranId = p.tranId := congrArg (fun x => x.2.2.2.2) heq
  have hcurrency : q.currency = p.currency := congrArg (fun x => x.2.2.2.1) heq
  have hamount : q.amount = p.amount := congrArg (fun x => x.2.2.1) heq
  exact ⟨h.status, htran ▸ h.tranId, hcurrency ▸ h.currency, hamount ▸ h.amount⟩

theorem SaysClosed.congr {host : Host} {p q : Payment} {tranId : String} {status : PaymentStatus}
    {own : List Happening} (h : SaysClosed host p tranId status own) (heq : q.terms = p.terms) :
    SaysClosed host q tranId status own := by
  have hcurrency : q.currency = p.currency := congrArg (fun x => x.2.2.2.1) heq
  have hamount : q.amount = p.amount := congrArg (fun x => x.2.2.1) heq
  unfold SaysClosed
  rw [hcurrency, hamount]
  exact h

/-! ### Justified moves -/

/-- What thread `i` had in the log before it made the payment SUCCESS. -/
def SuccessBacked (config : GatewayConfig) (s : GatewayDesk) (own : List Happening)
    (id : PaymentId) : Prop :=
  ∃ p valId v, p.id = id ∧ Known p s ∧ .validated valId (some v) ∈ own ∧ Confirms config.host p v

/-- What a thread with an unsigned or duplicate body had in the log before it closed the
payment. -/
def CloseBacked (config : GatewayConfig) (s : GatewayDesk) (own : List Happening)
    (id : PaymentId) (after : PaymentStatus) : Prop :=
  ∀ body, .received body ∈ own → (¬signedBody config body ∨ ∃ key, .recorded key true ∈ own) →
    ∃ p tranId, p.id = id ∧ Known p s ∧ p.tranId = some tranId ∧
      SaysClosed config.host p tranId after own

/-- A log entry is justified by what its thread had in the log before. -/
def Justified (config : GatewayConfig) (s : GatewayDesk) (own : List Happening) :
    Happening → Prop
  | .moved id before after =>
    (after = .success → SuccessBacked config s own id) ∧
      (before.isOpen = true → isClosed after = true → CloseBacked config s own id after)
  | _ => True

def AllJustified (config : GatewayConfig) (s : GatewayDesk) : List (ℕ × Happening) → Prop
  | [] => True
  | (i, h) :: earlier => Justified config s (happenedIn i earlier) h ∧ AllJustified config s earlier

theorem Justified.grows {own : List Happening} {h : Happening} (hj : Justified config s own h)
    (hg : Grows s t) : Justified config t own h := by
  cases h with
  | moved id before after =>
      refine ⟨fun ha => ?_, fun hb ha body hbody hbad => ?_⟩
      · obtain ⟨p, valId, v, hid, hk, hrest⟩ := hj.1 ha
        exact ⟨p, valId, v, hid, hk.grows hg, hrest⟩
      · obtain ⟨p, tranId, hid, hk, hrest⟩ := hj.2 hb ha body hbody hbad
        exact ⟨p, tranId, hid, hk.grows hg, hrest⟩
  | _ => trivial

theorem AllJustified.grows (hg : Grows s t) :
    ∀ log : List (ℕ × Happening), AllJustified config s log → AllJustified config t log := by
  intro log
  induction log with
  | nil => exact fun _ => trivial
  | cons e earlier ih => exact fun h => ⟨h.1.grows hg, ih h.2⟩

/-- A thread enters justified happenings. -/
theorem AllJustified.append {new : List Happening} {log : List (ℕ × Happening)}
    (h : AllJustified config s log)
    (hnew : ∀ y ∈ new, ∀ own, (∀ x ∈ happenedIn i log, x ∈ own) →
      (∀ x ∈ own, x.isInput = true → x ∈ happenedIn i log) → Justified config s own y)
    (hquiet : ∀ y ∈ new, y.isInput = true → new = [y]) :
    AllJustified config s (entries i new ++ log) := by
  induction new with
  | nil => exact h
  | cons y rest ih =>
      have hrest : ∀ z ∈ rest, z.isInput = true → rest = [z] := by
        intro z hz hin
        have := hquiet z (List.mem_cons_of_mem _ hz) hin
        have hnil : rest = [] := (List.cons.inj this).2
        rw [hnil] at hz
        cases hz
      refine ⟨hnew y List.mem_cons_self _ (fun x hx => ?_) fun x hx hin => ?_,
        ih (fun z hz => hnew z (List.mem_cons_of_mem _ hz)) hrest⟩
      · show x ∈ happenedIn i (entries i rest ++ log)
        rw [happenedIn_entries]
        exact List.mem_append_right _ hx
      · have hx' : x ∈ happenedIn i (entries i rest ++ log) := hx
        rw [happenedIn_entries] at hx'
        rcases List.mem_append.mp hx' with hr | hl
        · have := hquiet x (List.mem_cons_of_mem _ hr) hin
          have hnil : rest = [] := (List.cons.inj this).2
          rw [hnil] at hr
          cases hr
        · exact hl

/-- A thread without a body closes what it likes. -/
theorem justified_of_noBody {own : List Happening} {id : PaymentId}
    {before after : PaymentStatus} (hno : ∀ body, .received body ∉ own) (hne : after ≠ .success) :
    Justified config s own (.moved id before after) :=
  ⟨fun h => absurd h hne, fun _ _ body hbody => absurd hbody (hno body)⟩

theorem justified_step {o : GatewayOp} {x : Outside} {r : Except Fault o.Res} (hs : Sound s)
    (hpre : deskPre config i o s) (hj : AllJustified config s s.log)
    (h : o.exec i x s = some (r, t)) : AllJustified config t t.log := by
  obtain ⟨new, hw, -⟩ := exec_effect hs hpre h
  have hold := hj.grows hw.grows
  have hg := hw.grows
  cases exec_payStep hs hpre h with
  | rest log still input payments cash events cancels =>
      rw [log]
      refine hold.append (fun y hy own _ _ => ?_) input
      have hstill := still y hy
      cases y with
      | moved id before after => cases hstill
      | _ => trivial
  | pending row before =>
      refine ⟨⟨fun ha => ?_, fun _ ha => ?_⟩, hold⟩
      · simp [PaymentSettlement.markPending, before] at ha
      · simp [PaymentSettlement.markPending, before, isClosed] at ha
  | @closed id status reason p row before =>
      have hafter : (PaymentSettlement.fail status reason p).status = status.status := by
        simp [PaymentSettlement.fail, before]
      have hid : p.id = id := Rows.key_of_lookup row
      refine ⟨?_, hold⟩
      rw [hafter]
      refine ⟨fun ha => ?_, fun _ _ body hbody hbad => ?_⟩
      · cases status <;> cases ha
      · rcases hpre with hmay | ⟨q, tranId, hq, hknown, htran, hword⟩
        · obtain ⟨hsigned, hnew⟩ := hmay body hbody
          rcases hbad with hunsigned | ⟨key, hdup⟩
          · exact absurd hsigned hunsigned
          · exact absurd hdup (hnew key)
        · exact ⟨q, tranId, hq.trans hid.symm, hknown.grows hg, htran, hword⟩
  | @captured id columns posting p cash row before posted =>
      have hafter : (PaymentSettlement.succeed columns posting.at_ p).status = .success := by
        simp [PaymentSettlement.succeed, before]
      have hid : p.id = id := Rows.key_of_lookup row
      refine ⟨?_, hold⟩
      rw [hafter]
      refine ⟨fun _ => ?_, fun _ ha => by cases ha⟩
      obtain ⟨q, hq⟩ := hpre
      obtain ⟨valId, v, hv, hconf⟩ := hq.confirmed
      exact ⟨q, valId, v, hq.id.trans hid.symm, hq.known.grows hg, hv, hconf⟩
  | superseded =>
      obtain ⟨moves, hm, hmoved⟩ := wrote_supersede (s := s) (i := i) _
      rw [hm.log]
      refine hold.append (fun y hy own _ hinputs => ?_) fun y hy hin => ?_
      · obtain ⟨p, -, -, -, rfl⟩ := hmoved y hy
        exact justified_of_noBody (fun body hb => hpre body (hinputs _ hb rfl)) (by simp)
      · obtain ⟨p, -, -, -, rfl⟩ := hmoved y hy
        cases hin
  | created id orderId tran status fresh => exact hold
  | session row =>
      exact ⟨justified_of_noBody hpre (by simp [PaymentCheckout.sessionFailed]), hold⟩

/-! ### The log is complete -/

/-- A payment that is no longer new has the move to its status in the log. -/
def Logged (s : GatewayDesk) : Prop :=
  ∀ p ∈ s.payments, p.status = .initiated ∨ ∃ i before, (i, .moved p.id before p.status) ∈ s.log

theorem Logged.moved {p : Payment} {f : Payment → Payment} (h : Logged s) (hs : Sound s)
    (hp : Rows.lookup Payment.id p.id s.payments = some p) (hf : (f p).id = p.id) :
    Logged (s.moved i p f) := by
  intro q hq
  rcases Rows.mem_modify hs.nodup hp hq with rfl | ⟨hold, -⟩
  · refine .inr ⟨i, p.status, ?_⟩
    rw [hf]
    exact List.mem_cons_self
  · rcases h q hold with hnew | ⟨j, before, hm⟩
    · exact .inl hnew
    · exact .inr ⟨j, before, List.mem_cons_of_mem _ hm⟩

theorem logged_step {o : GatewayOp} {x : Outside} {r : Except Fault o.Res} (hs : Sound s)
    (hpre : deskPre config i o s) (hl : Logged s) (h : o.exec i x s = some (r, t)) : Logged t := by
  cases exec_payStep hs hpre h with
  | rest log still input payments cash events cancels =>
      intro p hp
      rcases hl p (payments ▸ hp) with hnew | ⟨j, before, hm⟩
      · exact .inl hnew
      · exact .inr ⟨j, before, log.symm ▸ List.mem_append_right _ hm⟩
  | pending row before =>
      obtain rfl := Rows.key_of_lookup row
      exact hl.moved hs row (congrArg (fun x => x.1) (PaymentSettlement.terms_markPending _))
  | closed row before =>
      obtain rfl := Rows.key_of_lookup row
      exact hl.moved hs row (congrArg (fun x => x.1) (PaymentSettlement.terms_fail _ _))
  | captured row before posted =>
      obtain rfl := Rows.key_of_lookup row
      exact hl.moved hs row (congrArg (fun x => x.1) (PaymentSettlement.terms_succeed _ _))
  | session row =>
      obtain rfl := Rows.key_of_lookup row
      exact hl.moved hs row rfl
  | created id orderId tran status fresh => exact Procs.forall_append hl (.inl status)
  | superseded =>
      rename_i orderId
      intro p hp
      obtain ⟨q, hq, rfl⟩ := List.mem_map.mp hp
      by_cases hmine : q.orderId = orderId ∧ q.status.isOpen = true
      · refine .inr ⟨i, q.status, ?_⟩
        simp only [hmine.1, if_true, PaymentCheckout.superseded, hmine.2]
        refine List.mem_append_left _ (List.mem_map.mpr ⟨q, List.mem_filter.mpr ⟨hq, ?_⟩, rfl⟩)
        simp [hmine.1, hmine.2]
      · have hsame : (if q.orderId = orderId then PaymentCheckout.superseded q else q) = q := by
          split
          · rename_i horder
            have hopen : q.status.isOpen = false := by simpa [horder] using hmine
            simp [PaymentCheckout.superseded, hopen]
          · rfl
        rw [hsame]
        rcases hl q hq with hnew | ⟨j, before, hm⟩
        · exact .inl hnew
        · exact .inr ⟨j, before, List.mem_append_right _ hm⟩

/-! ### Whole runs -/

/-- A desk before its first attempt. -/
structure DeskOpening (s : GatewayDesk) : Prop where
  payments : s.payments = []
  log : s.log = []
  orderIds : (s.orders.map Order.id).Nodup
  columns : ∀ o ∈ s.orders, fitsColumns o = true

instance (s : GatewayDesk) : Decidable (DeskOpening s) :=
  decidable_of_iff (s.payments = [] ∧ s.log = [] ∧ (s.orders.map Order.id).Nodup ∧
    ∀ o ∈ s.orders, fitsColumns o = true)
    ⟨fun h => ⟨h.1, h.2.1, h.2.2.1, h.2.2.2⟩, fun h => ⟨h.payments, h.log, h.orderIds, h.columns⟩⟩

theorem DeskOpening.kept (h : DeskOpening s) (config : GatewayConfig) :
    (deskContract config).Kept (fun i => Settled i) ({ state := s } : GatewayWorld) := by
  refine ⟨⟨?_, ?_, ?_, ?_, ?_, h.orderIds, h.columns⟩, fun i p hp => ?_, fun i _ => ?_⟩
  · show s.payments.map Payment.id = _
    rw [h.payments]
    rfl
  · show (s.payments.map Payment.tranId).Nodup
    rw [h.payments]
    exact List.nodup_nil
  · intro p hp
    have hp' : p ∈ s.payments := hp
    rw [h.payments] at hp'
    cases hp'
  · intro p hp
    have hp' : p ∈ s.payments := hp
    rw [h.payments] at hp'
    cases hp'
  · intro p hp
    have hp' : p ∈ s.payments := hp
    rw [h.payments] at hp'
    cases hp'
  · cases hp
  · show happenedIn i s.log = []
    rw [h.log]
    rfl

/-- **Every run keeps the contract, and any property that its operations keep.** -/
theorem gateway_run {w w' : GatewayWorld} {as : List (Act GatewayRequest Outside)}
    (h : (deskContract config).Kept (fun i => Settled i) w)
    (hrun : runFrom (gatewayStep config) w as = some w') :
    (deskContract config).Kept (fun i => Settled i) w' :=
  Contract.Kept.run (fun request _ _ _ hfresh => obeys_body request hfresh) as h hrun

theorem gateway_guarded {J : GatewayDesk → Prop} {ok : ℕ → GatewayOp → Outside → GatewayDesk → Prop}
    {w w' : GatewayWorld} {as : List (Act GatewayRequest Outside)}
    (h : (deskContract config).Kept (fun i => Settled i) w) (hj : J w.state)
    (hJ : ∀ i (o : GatewayOp) x s (r : Except Fault o.Res) t, Sound s → deskPre config i o s →
      ok i o x s → J s → o.exec i x s = some (r, t) → J t)
    (hguard : GuardedRun (gatewayStep config) (World.Admits ok) w as)
    (hrun : runFrom (gatewayStep config) w as = some w') : J w'.state :=
  Contract.Kept.guarded (fun request _ _ _ hfresh => obeys_body request hfresh) hJ as h hj hguard
    hrun

/-- A run without conditions. -/
theorem unguarded (as : List (Act GatewayRequest Outside)) (w : GatewayWorld) :
    GuardedRun (gatewayStep config) (World.Admits fun _ _ _ _ => True) w as :=
  guardedRun_of_forall (World.admits_of_forall fun _ _ _ _ => trivial) as w

theorem AllJustified.at_split :
    ∀ (later : List (ℕ × Happening)) {h : Happening} {earlier log : List (ℕ × Happening)},
      AllJustified config s log → log = later ++ (i, h) :: earlier →
      Justified config s (happenedIn i earlier) h := by
  intro later
  induction later with
  | nil =>
      rintro h earlier log hj rfl
      exact hj.1
  | cons e rest ih =>
      rintro h earlier log hj rfl
      exact ih hj.2 rfl

/-- Why payments move. -/
structure MovesBacked (config : GatewayConfig) (s : GatewayDesk) : Prop where
  /-- a payment that is no longer new has the move to its status in the log -/
  logged : Logged s
  /-- before a move to SUCCESS, the validation API confirmed this payment -/
  success : ∀ later i id before earlier, s.log = later ++ (i, .moved id before .success) :: earlier →
    ∃ p, Rows.lookup Payment.id id s.payments = some p ∧ ∃ valId v,
      (i, .validated valId (some v)) ∈ earlier ∧ Confirms config.host p v
  /-- before an open attempt was closed for an unsigned or duplicate body, the gateway said,
  about its tran_id, that it ended so -/
  closed : ∀ later i id before after earlier body,
    s.log = later ++ (i, .moved id before after) :: earlier → before.isOpen = true →
    isClosed after = true → (i, .received body) ∈ earlier →
    (¬signedBody config body ∨ ∃ key, (i, .recorded key true) ∈ earlier) →
    ∃ p tranId, Rows.lookup Payment.id id s.payments = some p ∧ p.tranId = some tranId ∧
      SaysClosed config.host p tranId after (happenedIn i earlier)

/-- **No payment moves without the gateway's word, over every run of the desk.** -/
theorem moves_backed (config : GatewayConfig) (s₀ : GatewayDesk) (w : GatewayWorld)
    (as : List (Act GatewayRequest Outside)) (hopen : DeskOpening s₀)
    (hrun : runFrom (gatewayStep config) { state := s₀ } as = some w) :
    MovesBacked config w.state := by
  have hstart : AllJustified config s₀ s₀.log ∧ Logged s₀ := by
    refine ⟨by rw [hopen.log]; trivial, fun p hp => ?_⟩
    rw [hopen.payments] at hp
    cases hp
  obtain ⟨hj, hl⟩ : AllJustified config w.state w.state.log ∧ Logged w.state :=
    gateway_guarded (J := fun s => AllJustified config s s.log ∧ Logged s) (hopen.kept config)
      hstart (fun i o x s r t hs hpre _ h he =>
        ⟨justified_step hs hpre h.1 he, logged_step hs hpre h.2 he⟩) (unguarded as _) hrun
  refine ⟨hl, fun later i id before earlier hlog => ?_,
    fun later i id before after earlier body hlog hbefore hafter hbody hbad => ?_⟩
  · obtain ⟨p, valId, v, rfl, ⟨q, hq, hterms⟩, hv, hconf⟩ := (hj.at_split later hlog).1 rfl
    exact ⟨q, hq, valId, v, mem_happenedIn.mp hv, hconf.congr hterms⟩
  · have hbad' : ¬signedBody config body ∨ ∃ key, .recorded key true ∈ happenedIn i earlier :=
      hbad.imp (fun h => h) fun ⟨key, hk⟩ => ⟨key, mem_happenedIn.mpr hk⟩
    obtain ⟨p, tranId, rfl, ⟨q, hq, hterms⟩, htran, hword⟩ :=
      (hj.at_split later hlog).2 hbefore hafter body (mem_happenedIn.mpr hbody) hbad'
    have htran' : q.tranId = p.tranId := congrArg (fun x => x.2.2.2.2) hterms
    exact ⟨q, tranId, hq, htran'.trans htran, hword.congr hterms⟩

/-! ### A shopper pays -/

/-- Node on plain ASCII texts; the bodies below carry no hash. -/
def asciiHost : Host where
  md5 _ := ""
  toUpperCase v := String.ofList (v.toList.map Char.toUpper)
  toLowerCase v := String.ofList (v.toList.map Char.toLower)
  number := decimal

def asciiConfig : GatewayConfig := { host := asciiHost, storePassword := "secret" }

/-- An unpaid online order of 560. -/
def unpaidOrder : Order :=
  { id := 0, orderNo := "CLO-2041", paymentMethod := .sslcommerz, contactPhone := "+8801700000000",
    itemsSubtotal := 500, shippingFee := 60, grandTotal := 560 }

def onlineDesk : GatewayDesk := { orders := [unpaidOrder] }

/-- The gateway's answer for the first attempt. -/
def paidAnswer (currency : String) : SslValidation :=
  { status := some "VALID", tranId := some "CLO-2041-1", valId := some "v1",
    amount := some "560.00", storeAmount := some "546.00", currency := some currency }

/-- The attempt is started, an unsigned failure comes in and the gateway knows of nothing;
then the shopper comes back paid. -/
def shopperPays (currency : String) : List (Act GatewayRequest Outside) :=
  let tran : Body := [("tran_id", "CLO-2041-1")]
  let session : SslSession := { status := some "SUCCESS", gatewayPageUrl := some "https://pay" }
  [.start (.init { key := .id 0, phone := some "+8801700000000" }),
   .run 0 {}, .run 0 {}, .run 0 {}, .run 0 { now := 1 }, .run 0 { session }, .run 0 {},
   .start (.callback .fail tran),
   .run 1 {}, .run 1 {}, .run 1 {}, .run 1 { query := some {} }, .run 1 {}, .run 1 { now := 2 },
   .start (.callback .success (("val_id", "v1") :: tran)),
   .run 2 {}, .run 2 {}, .run 2 {}, .run 2 {}, .run 2 { validation := some (paidAnswer currency) },
   .run 2 {}, .run 2 { now := 3 }, .run 2 {}, .run 2 {}, .run 2 { now := 3 }]

theorem moves_backed_shopperPays :
    ∃ w, runFrom (gatewayStep asciiConfig) { state := onlineDesk } (shopperPays "BDT") = some w ∧
      w.state.payments.map Payment.status = [.success] ∧ MovesBacked asciiConfig w.state := by
  have hruns : (runFrom (gatewayStep asciiConfig) { state := onlineDesk }
      (shopperPays "BDT")).any (fun w => w.state.payments.map Payment.status = [.success]) = true := by
    decide +kernel
  obtain ⟨w, hw, hpaid⟩ := Option.any_eq_true _ _ |>.mp hruns
  exact ⟨w, hw, by simpa using hpaid,
    moves_backed asciiConfig onlineDesk w (shopperPays "BDT") (by decide +kernel) hw⟩

/-- An answer of the validation API is in small letters. -/
def Happening.inSmallLetters : Happening → Bool
  | validated _ (some v) => v.currency = some "bdt" && v.currencyType = none
  | _ => true

/-- The letter case of the currency does not matter either. -/
theorem currency_case_ignored :
    ∃ w, runFrom (gatewayStep asciiConfig) { state := onlineDesk } (shopperPays "bdt") = some w ∧
      ∃ p ∈ w.state.payments, p.status = .success ∧ p.currency = "BDT" ∧
        ∀ e ∈ w.state.log, ∀ valId v, e.2 = .validated valId (some v) →
          v.currency = some "bdt" ∧ v.currencyType = none := by
  have hruns : (runFrom (gatewayStep asciiConfig) { state := onlineDesk } (shopperPays "bdt")).any
      (fun w => w.state.payments.any (fun p => p.status = .success && p.currency = "BDT") &&
        w.state.log.all fun e => e.2.inSmallLetters) = true := by
    decide +kernel
  obtain ⟨w, hw, hfacts⟩ := Option.any_eq_true _ _ |>.mp hruns
  obtain ⟨hany, hall⟩ := Bool.and_eq_true_iff.mp hfacts
  obtain ⟨p, hp, hpaid⟩ := List.any_eq_true.mp hany
  simp only [Bool.and_eq_true, decide_eq_true_eq] at hpaid
  refine ⟨w, hw, p, hp, hpaid.1, hpaid.2, fun e he valId v heq => ?_⟩
  have hv := List.all_eq_true.mp hall e he
  rw [heq] at hv
  simpa [Happening.inSmallLetters] using hv

end BookHouse
