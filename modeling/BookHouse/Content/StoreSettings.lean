/-
The settings of the store: `content/domain/store-settings.ts` and
`content/application/store-settings.service.ts`.

Each key has a schema and a default, and a stored value that no longer validates counts as none.
The service keeps what it has read for a few seconds.  A read that began before a save can put
the old values back after the save has dropped them, so a save is not seen at once; what is
shown here is how long that can last.
-/
import BookHouse.Lib.Cache
import BookHouse.Lib.Result
import BookHouse.Proofs.Phones
import BookHouse.Proofs.Segments
import BookHouse.Text.JsString

namespace BookHouse

/-! ### `domain/store-settings.ts` -/

/-- The formats of texts that zod knows. -/
structure Zod where
  email : String → Bool
  url : String → Bool

/-- A value of a request, or of the `Json` column; no schema accepts arrays or objects. -/
inductive SettingValue
  | null
  | boolean (b : Bool)
  | number (n : ℚ)
  | text (s : String)
  | nested
deriving DecidableEq

inductive SettingSchema
  /-- `z.string().trim().min(min).max(max)` -/
  | text (min max : ℕ)
  | bdPhone
  | email
  | url
  | oneOf (values : List String)
  | boolean
  | number (min max : ℚ)
  | int (min max : ℚ)
  /-- `/^[A-Z]{2,6}-?$/` -/
  | capitals
  | nullable (schema : SettingSchema)

/-- `/^[A-Z]{2,6}-?$/` -/
def isCapitals (v : String) : Bool :=
  let letters := v.toList.takeWhile Char.isUpper
  2 ≤ letters.length && letters.length ≤ 6 &&
    (v.toList.drop letters.length = [] || v.toList.drop letters.length = ['-'])

/-- `z.string().trim()` with a check -/
def SettingSchema.trimmed (accepts : String → Bool) (s : String) : Option SettingValue :=
  if accepts (trim s) then some (.text (trim s)) else none

/-- `safeParse` -/
def SettingSchema.parse (zod : Zod) : SettingSchema → SettingValue → Option SettingValue
  | text min max, .text s => trimmed (fun v => min ≤ (js v).length && (js v).length ≤ max) s
  | bdPhone, .text s => (normalizeBdPhone s).map .text
  | email, .text s => trimmed zod.email s
  | url, .text s => trimmed zod.url s
  | oneOf values, .text s => if s ∈ values then some (.text s) else none
  | boolean, .boolean b => some (.boolean b)
  | number min max, .number n => if min ≤ n && n ≤ max then some (.number n) else none
  | int min max, .number n =>
    if n.den = 1 && min ≤ n && n ≤ max then some (.number n) else none
  | capitals, .text s => trimmed isCapitals s
  | nullable schema, v => if v = .null then some .null else schema.parse zod v
  | _, _ => none

structure Setting where
  name : String
  schema : SettingSchema
  default : SettingValue
  /-- served to the storefront -/
  isPublic : Bool

inductive SettingKey
  | storeName | storeNameEn | tagline | helpline | whatsapp | supportEmail | supportHours
  | facebookUrl | address | theme | codEnabled | onlinePaymentEnabled | gatewayFeePct
  | defaultLowStockThreshold | orderPrefix | codStaleDays | lowStockAlerts
deriving DecidableEq

/-- `SETTINGS`, but for the descriptions. -/
def SettingKey.setting : SettingKey → Setting
  | storeName => ⟨"store_name", .text 1 80, .text "চলো", true⟩
  | storeNameEn => ⟨"store_name_en", .text 1 80, .text "Cholo", true⟩
  | tagline => ⟨"tagline", .text 0 160, .text "", true⟩
  | helpline => ⟨"helpline", .bdPhone, .text "+8801700000000", true⟩
  | whatsapp => ⟨"whatsapp", .nullable .bdPhone, .null, true⟩
  | supportEmail => ⟨"support_email", .nullable .email, .null, true⟩
  | supportHours => ⟨"support_hours", .text 0 80, .text "সকাল ১০টা – রাত ১০টা", true⟩
  | facebookUrl => ⟨"facebook_url", .nullable .url, .null, true⟩
  | address => ⟨"address", .text 0 300, .text "", true⟩
  | theme => ⟨"theme", .oneOf ["classic", "mint"], .text "classic", true⟩
  | codEnabled => ⟨"cod_enabled", .boolean, .boolean true, true⟩
  | onlinePaymentEnabled => ⟨"online_payment_enabled", .boolean, .boolean true, true⟩
  | gatewayFeePct => ⟨"gateway_fee_pct", .number 0 10, .number (5 / 2), false⟩
  | defaultLowStockThreshold => ⟨"default_low_stock_threshold", .int 0 10000, .number 5, false⟩
  | orderPrefix => ⟨"order_prefix", .capitals, .text "CLO-", false⟩
  | codStaleDays => ⟨"cod_stale_days", .int 1 60, .number 5, false⟩
  | lowStockAlerts => ⟨"low_stock_alerts", .boolean, .boolean true, false⟩

/-- `SETTING_KEYS` -/
def SettingKey.all : List SettingKey :=
  [storeName, storeNameEn, tagline, helpline, whatsapp, supportEmail, supportHours, facebookUrl,
   address, theme, codEnabled, onlinePaymentEnabled, gatewayFeePct, defaultLowStockThreshold,
   orderPrefix, codStaleDays, lowStockAlerts]

def SettingKey.ofName (name : String) : Option SettingKey := all.find? (·.setting.name = name)

/-- `parseSetting`, but for what zod says of a refusal. -/
def parseSetting (zod : Zod) (name : String) (v : SettingValue) :
    Option (SettingKey × SettingValue) := do
  let key ← SettingKey.ofName name
  return (key, ← key.setting.schema.parse zod v)

/-- The rows of `store_settings` that are read. -/
abbrev SettingRows := SettingKey → Option SettingValue

abbrev Settings := SettingKey → SettingValue

/-- Stored rows over defaults; stored values that no longer validate fall back to the default. -/
def resolveSettings (zod : Zod) (stored : SettingRows) : Settings := fun key =>
  ((stored key).bind (key.setting.schema.parse zod)).getD key.setting.default

/-! ### `store-settings.service.ts` -/

/-- A body of `PATCH /admin/settings`. -/
structure SettingsInput where
  entries : List (String × SettingValue)
  nodup : (entries.map (·.1)).Nodup

structure SettingsDesk where
  rows : SettingRows := fun _ => none
  now : Instant := 0

namespace StoreSettings

/-- What `setMany` upserts. -/
def parsed (zod : Zod) (input : SettingsInput) : Except Failure (List (SettingKey × SettingValue)) :=
  if input.entries = [] then .error (.rule "settings.empty" "কোনো সেটিং পাঠানো হয়নি")
  else
    match input.entries.mapM fun e => parseSetting zod e.1 e.2 with
    | some entries => .ok entries
    | none => .error (.rule "settings.invalid" "কিছু সেটিং সঠিক নয়")

def upsert (rows : SettingRows) (e : SettingKey × SettingValue) : SettingRows :=
  Function.update rows e.1 (some e.2)

/-- The transaction of `setMany`. -/
def setMany (zod : Zod) (s : SettingsDesk) (input : SettingsInput) : Except Failure SettingsDesk := do
  let entries ← parsed zod input
  return { s with rows := entries.foldl upsert s.rows }

/-- `all`: what has been read is kept for `TTL_MS`. -/
def all (zod : Zod) : Cache SettingsDesk Unit SettingRows Settings where
  ttl := 10000
  clock s := s.now
  load s _ := s.rows
  value _ rows := resolveSettings zod rows
  keep _ key entry := [(key, entry)]
  mem_keep _ _ _ _ hx := .inl (List.mem_singleton.mp hx)

end StoreSettings

/-- Time passes, or a request saves settings. -/
inductive SettingsAct
  | wait (ms : ℕ)
  | setMany (input : SettingsInput)

def settingsStep (zod : Zod) (s : SettingsDesk) : SettingsAct → Option SettingsDesk
  | .wait ms => some { s with now := s.now + ms }
  | .setMany input =>
    match StoreSettings.setMany zod s input with
    | .ok t => some t
    | .error _ => some s

/-- Settings are read by calls at any time, and dropped after each save. -/
def storeStep (zod : Zod) : Cache.State SettingsDesk Unit SettingRows Settings →
    Cache.Act SettingsAct Unit → Option (Cache.State SettingsDesk Unit SettingRows Settings) :=
  (StoreSettings.all zod).step (settingsStep zod)

/-! ### What validates, validates again -/

variable {zod : Zod} {x v : SettingValue} {key : SettingKey}

theorem trim_trim (s : String) : trim (trim s) = trim s := trim_of_isTrimmed (isTrimmed_trim s)

theorem SettingSchema.trimmed_trimmed {accepts : String → Bool} {s : String}
    (h : trimmed accepts s = some v) : ∃ r, v = .text r ∧ trimmed accepts r = some v := by
  unfold trimmed at h
  split at h
  next haccepts =>
    obtain rfl := Option.some.inj h
    refine ⟨trim s, rfl, ?_⟩
    unfold trimmed
    rw [trim_trim, if_pos haccepts]
  next => cases h

/-- What a schema makes of a value, it leaves as it is. -/
theorem SettingSchema.parse_parse (schema : SettingSchema) (h : schema.parse zod x = some v) :
    schema.parse zod v = some v := by
  -- a check that leaves the value as it is
  have hkept : ∀ {p : Prop} [Decidable p], (if p then some x else none) = some v → x = v := by
    intro p _ hif
    split at hif
    · exact Option.some.inj hif
    · cases hif
  induction schema with
  | nullable schema ih =>
      simp only [parse] at h ⊢
      by_cases hx : x = .null
      · rw [if_pos hx] at h
        obtain rfl := Option.some.inj h
        rw [if_pos rfl]
      · rw [if_neg hx] at h
        by_cases hv : v = .null
        · rw [if_pos hv, hv]
        · rw [if_neg hv]
          exact ih h
  | bdPhone =>
      cases x with
      | text s =>
          obtain ⟨phone, hphone, rfl⟩ := Option.map_eq_some_iff.mp h
          have hcanonical := (normalizeBdPhone_some hphone).normalize.1
          simp only [parse, hcanonical, Option.map_some]
      | _ => cases h
  | text min max =>
      cases x with
      | text s =>
          obtain ⟨r, rfl, hr⟩ := trimmed_trimmed h
          exact hr
      | _ => cases h
  | email =>
      cases x with
      | text s =>
          obtain ⟨r, rfl, hr⟩ := trimmed_trimmed h
          exact hr
      | _ => cases h
  | url =>
      cases x with
      | text s =>
          obtain ⟨r, rfl, hr⟩ := trimmed_trimmed h
          exact hr
      | _ => cases h
  | capitals =>
      cases x with
      | text s =>
          obtain ⟨r, rfl, hr⟩ := trimmed_trimmed h
          exact hr
      | _ => cases h
  | oneOf values =>
      cases x with
      | text s =>
          obtain rfl := hkept h
          exact h
      | _ => cases h
  | boolean =>
      cases x with
      | boolean b =>
          obtain rfl := Option.some.inj h
          rfl
      | _ => cases h
  | number min max =>
      cases x with
      | number n =>
          obtain rfl := hkept h
          exact h
      | _ => cases h
  | int min max =>
      cases x with
      | number n =>
          obtain rfl := hkept h
          exact h
      | _ => cases h

/-- Every default passes its own check. -/
theorem SettingKey.parse_default (zod : Zod) (key : SettingKey) :
    key.setting.schema.parse zod key.setting.default = some key.setting.default := by
  cases key with
  | gatewayFeePct =>
      simp only [setting, SettingSchema.parse]
      norm_num
  | _ => rfl

theorem resolve_valid (zod : Zod) (stored : SettingRows) (key : SettingKey) :
    key.setting.schema.parse zod (resolveSettings zod stored key) =
      some (resolveSettings zod stored key) := by
  unfold resolveSettings
  cases hv : (stored key).bind (key.setting.schema.parse zod) with
  | none => exact SettingKey.parse_default zod key
  | some v =>
      obtain ⟨x, -, hx⟩ := Option.bind_eq_some_iff.mp hv
      exact SettingSchema.parse_parse _ hx

/-! ### What a save leaves -/

variable {stored : SettingRows} {input : SettingsInput} {entries : List (SettingKey × SettingValue)}
  {s t : SettingsDesk}

theorem foldl_upsert_of_not_mem (h : ∀ e ∈ entries, e.1 ≠ key) (stored : SettingRows) :
    entries.foldl StoreSettings.upsert stored key = stored key := by
  induction entries generalizing stored with
  | nil => rfl
  | cons e rest ih =>
      rw [List.foldl_cons, ih (fun e' he => h e' (List.mem_cons_of_mem _ he))]
      exact Function.update_of_ne (h e List.mem_cons_self).symm _ _

theorem foldl_upsert_of_mem (hnodup : (entries.map (·.1)).Nodup) (h : (key, v) ∈ entries)
    (stored : SettingRows) : entries.foldl StoreSettings.upsert stored key = some v := by
  induction entries generalizing stored with
  | nil => cases h
  | cons e rest ih =>
      obtain ⟨hnew, hrest⟩ := List.nodup_cons.mp hnodup
      rw [List.foldl_cons]
      rcases List.mem_cons.mp h with rfl | hmem
      · rw [foldl_upsert_of_not_mem fun e' he heq => hnew (List.mem_map.mpr ⟨e', he, heq⟩)]
        exact Function.update_self _ _ _
      · exact ih hrest hmem _

theorem SettingKey.name_of_ofName {name : String} (h : ofName name = some key) :
    key.setting.name = name := by
  simpa using List.find?_some h

theorem SettingKey.ofName_name (key : SettingKey) : ofName key.setting.name = some key := by
  cases key <;> rfl

theorem parseSetting_some {name : String} {e : SettingKey × SettingValue}
    (h : parseSetting zod name x = some e) :
    e.1.setting.name = name ∧ e.1.setting.schema.parse zod x = some e.2 := by
  obtain ⟨key, hkey, hrest⟩ := Option.bind_eq_some_iff.mp h
  obtain ⟨v, hv, he⟩ := Option.bind_eq_some_iff.mp hrest
  obtain rfl := Option.some.inj he
  exact ⟨SettingKey.name_of_ofName hkey, hv⟩

/-- What a save upserts is what was sent, as the schemas read it. -/
structure Upserts (zod : Zod) (input : SettingsInput)
    (entries : List (SettingKey × SettingValue)) : Prop where
  keys : (entries.map (·.1)).Nodup
  sent : ∀ e ∈ input.entries, ∃ r ∈ entries, parseSetting zod e.1 e.2 = some r
  only : ∀ r ∈ entries, ∃ e ∈ input.entries, parseSetting zod e.1 e.2 = some r

theorem parsed_ok (h : StoreSettings.parsed zod input = .ok entries) :
    Upserts zod input entries := by
  unfold StoreSettings.parsed at h
  split at h
  · cases h
  split at h
  next parsed hparsed =>
    obtain rfl := Except.ok.inj h
    have hall := Result.mapM_forall₂ hparsed
    have hnames : input.entries.map (·.1) = parsed.map (·.1.setting.name) := by
      rw [← List.forall₂_eq_eq_eq, List.forall₂_map_left_iff, List.forall₂_map_right_iff]
      exact hall.imp fun e r hr => (parseSetting_some hr).1.symm
    refine ⟨?_, fun e he => ?_, fun r hr => ?_⟩
    · have hnodup := input.nodup
      rw [hnames] at hnodup
      refine List.Nodup.of_map (fun key : SettingKey => key.setting.name) ?_
      rw [List.map_map]
      exact hnodup
    · exact Result.exists_of_forall₂ hall he
    · exact Result.exists_of_forall₂ hall.flip hr
  next => cases h

/-- A key that is sent is then resolved as its schema reads it. -/
theorem resolve_sent (h : Upserts zod input entries) (hx : (key.setting.name, x) ∈ input.entries)
    (hv : key.setting.schema.parse zod x = some v) (stored : SettingRows) :
    resolveSettings zod (entries.foldl StoreSettings.upsert stored) key = v := by
  obtain ⟨⟨k, w⟩, hmem, hparse⟩ := h.sent _ hx
  obtain ⟨hname, hw⟩ := parseSetting_some hparse
  have hkey : k = key := by
    have := SettingKey.ofName_name k
    rw [hname, SettingKey.ofName_name] at this
    exact (Option.some.inj this).symm
  subst hkey
  obtain rfl : v = w := Option.some.inj (hv.symm.trans hw)
  unfold resolveSettings
  rw [foldl_upsert_of_mem h.keys hmem, Option.bind_some, SettingSchema.parse_parse _ hv,
    Option.getD_some]

/-- A key that is not sent is resolved as before. -/
theorem resolve_unsent (h : Upserts zod input entries)
    (hkey : ∀ e ∈ input.entries, e.1 ≠ key.setting.name) (stored : SettingRows) :
    resolveSettings zod (entries.foldl StoreSettings.upsert stored) key =
      resolveSettings zod stored key := by
  unfold resolveSettings
  rw [foldl_upsert_of_not_mem fun r hr he => ?_]
  obtain ⟨e, he', hparse⟩ := h.only r hr
  exact hkey e he' (he ▸ (parseSetting_some hparse).1.symm)

/-! ### How long a save is not seen -/

abbrev StoreState := Cache.State SettingsDesk Unit SettingRows Settings

/-- An action that does not save the key. -/
def Spares (key : SettingKey) : Cache.Act SettingsAct Unit → Prop
  | .source (.setMany input) => ∀ e ∈ input.entries, e.1 ≠ key.setting.name
  | _ => True

theorem settingsStep_forward (zod : Zod) :
    Cache.Forward (StoreSettings.all zod) (settingsStep zod) := by
  intro s a t hstep
  cases a with
  | wait ms =>
      obtain rfl := Option.some.inj hstep
      exact Int.le_add_of_nonneg_right (Int.natCast_nonneg ms)
  | setMany input =>
      simp only [settingsStep] at hstep
      split at hstep
      next t' hsave =>
        obtain rfl := Option.some.inj hstep
        obtain ⟨entries, -, hentries⟩ := Result.bind_ok.mp hsave
        obtain rfl := Result.pure_ok.mp hentries
        exact le_refl _
      next =>
        obtain rfl := Option.some.inj hstep
        exact le_refl _

/-- What is not saved over stays. -/
theorem settingsStep_spares {a : SettingsAct} (hspares : Spares key (.source a))
    (hstep : settingsStep zod s a = some t) :
    resolveSettings zod t.rows key = resolveSettings zod s.rows key := by
  cases a with
  | wait ms =>
      obtain rfl := Option.some.inj hstep
      rfl
  | setMany input =>
      simp only [settingsStep] at hstep
      split at hstep
      next t' hsave =>
        obtain rfl := Option.some.inj hstep
        obtain ⟨entries, hparsed, hentries⟩ := Result.bind_ok.mp hsave
        obtain rfl := Result.pure_ok.mp hentries
        exact resolve_unsent (parsed_ok hparsed) hspares _
      next =>
        obtain rfl := Option.some.inj hstep
        rfl

section served

variable {u w : StoreState} {delay : ℤ}

theorem storeStep_spares {a : Cache.Act SettingsAct Unit} (hspares : Spares key a)
    (hstep : storeStep zod u a = some w) :
    resolveSettings zod w.source.rows key = resolveSettings zod u.source.rows key := by
  cases a with
  | source a =>
      obtain ⟨source, hmove, rfl⟩ := Option.map_eq_some_iff.mp hstep
      exact settingsStep_spares hspares hmove
  | call k =>
      obtain rfl := Option.some.inj hstep
      rfl
  | load i =>
      simp only [storeStep, Cache.step] at hstep
      split at hstep
      · obtain rfl := Option.some.inj hstep
        rfl
      · cases hstep
  | answer i =>
      simp only [storeStep, Cache.step] at hstep
      split at hstep
      · obtain rfl := Option.some.inj hstep
        rfl
      · cases hstep
  | drop =>
      obtain rfl := Option.some.inj hstep
      rfl

/-- A key that is not saved keeps its value along a run. -/
theorem along_spares {as : List (Cache.Act SettingsAct Unit)} (hspares : ∀ a ∈ as, Spares key a)
    (hv : resolveSettings zod u.source.rows key = v) :
    Machine.Along (storeStep zod)
      (Cache.Clear (StoreSettings.all zod) (fun values => values key ≠ v) ()) u as := by
  have hclear : ∀ u : StoreState, resolveSettings zod u.source.rows key = v →
      Cache.Clear (StoreSettings.all zod) (fun values => values key ≠ v) () u :=
    fun u hu now _ hbad => hbad hu
  induction as generalizing u with
  | nil => exact hclear u hv
  | cons a rest ih =>
      refine ⟨hclear u hv, fun u' hstep => ?_⟩
      exact ih (fun a ha => hspares a (List.mem_cons_of_mem _ ha))
        ((storeStep_spares (hspares a List.mem_cons_self) hstep).trans hv)

theorem started_past (desk : SettingsDesk) :
    Cache.Past (StoreSettings.all zod) ({ source := desk } : StoreState) where
  entries e he := by simp at he
  told i k r a hi := by simp at hi
  done i k x a hi := by simp at hi

/-- **What is served validates**, whatever is stored, and validates as itself. -/
theorem served_valid (zod : Zod) (desk : SettingsDesk) (as : List (Cache.Act SettingsAct Unit))
    (final : StoreState) (hrun : Machine.runFrom (storeStep zod) { source := desk } as = some final)
    (i : ℕ) (values : Settings) (at_ : Instant)
    (hserved : final.calls[i]? = some (.done () values at_)) (key : SettingKey) :
    key.setting.schema.parse zod (values key) = some (values key) := by
  have hmade : Cache.Made
      (fun values : Settings => key.setting.schema.parse zod (values key) = some (values key))
      final :=
    Cache.made_run (c := StoreSettings.all zod) (fun _ rows => resolve_valid zod rows key) as
      ⟨fun e he => by simp at he, fun i k x a hi => by simp at hi⟩ hrun
  exact hmade.done i () values at_ hserved

/-- **A save is served from ten seconds after it on**, and the time that a read takes: whichever
reads are under way meanwhile, and whether or not what is kept is dropped in time. -/
theorem saved_served (zod : Zod) (desk : SettingsDesk) (delay : ℤ) (hdelay : 0 ≤ delay)
    (before after : List (Cache.Act SettingsAct Unit)) (start saved final : StoreState)
    (hbefore : Machine.runFrom (storeStep zod) { source := desk } before = some start)
    (input : SettingsInput) (haccepted : (StoreSettings.parsed zod input).isOk = true)
    (hsave : storeStep zod start (.source (.setMany input)) = some saved)
    (key : SettingKey) (x v : SettingValue) (hx : (key.setting.name, x) ∈ input.entries)
    (hv : key.setting.schema.parse zod x = some v) (hspares : ∀ a ∈ after, Spares key a)
    (hquick : Machine.GuardedRun (storeStep zod) ((StoreSettings.all zod).Quick delay) saved after)
    (hrun : Machine.runFrom (storeStep zod) saved after = some final) (i : ℕ) (values : Settings)
    (at_ : Instant) (hserved : final.calls[i]? = some (.done () values at_))
    (hlate : saved.source.now + delay + 10000 ≤ at_) : values key = v := by
  have hforward := settingsStep_forward zod
  have hpast : Cache.Past (StoreSettings.all zod) saved :=
    (Cache.past_run hforward before (started_past desk) hbefore).step hforward hsave
  have hresolved : resolveSettings zod saved.source.rows key = v := by
    obtain ⟨source, hmove, rfl⟩ := Option.map_eq_some_iff.mp hsave
    simp only [settingsStep] at hmove
    cases hparsed : StoreSettings.parsed zod input with
    | error e =>
        rw [hparsed] at haccepted
        cases haccepted
    | ok entries =>
        simp only [StoreSettings.setMany, hparsed, bind, Except.bind, pure, Except.pure] at hmove
        obtain rfl := Option.some.inj hmove
        exact resolve_sent (parsed_ok hparsed) hx hv _
  have httl : 0 < (StoreSettings.all zod).ttl := by
    show (0 : ℤ) < 10000
    norm_num
  have hfading := Cache.bad_fades hforward httl after saved final (hpast.fading hdelay httl)
    (along_spares hspares hresolved) hquick hrun
  by_contra hbad
  have hearly : at_ < saved.source.now + delay + 10000 := hfading.done i values at_ hserved hbad
  exact absurd hlate (not_le.mpr hearly)

/-- The formats of the settings below are not asked for. -/
def anyFormat : Zod := { email := fun _ => true, url := fun _ => true }

def mintTheme : SettingsInput := { entries := [("theme", .text "mint")], nodup := by decide }

/-- A read begins before the theme is saved and ends after it, and the old theme is kept again; the
next read is ten seconds later. -/
def readOver : List (Cache.Act SettingsAct Unit) :=
  [.drop, .source (.wait 40), .answer 0, .call (), .source (.wait 10000), .call (), .load 2,
   .answer 2]

theorem saved_served_readOver : ∃ start saved final : StoreState, ∃ values : Settings,
    Machine.runFrom (storeStep anyFormat) { source := {} } [.call (), .load 0] = some start ∧
      storeStep anyFormat start (.source (.setMany mintTheme)) = some saved ∧
      Machine.runFrom (storeStep anyFormat) saved readOver = some final ∧
      final.calls[2]? = some (.done () values 10040) ∧ values .theme = .text "mint" := by
  refine ⟨_, _, _, _, rfl, rfl, rfl, rfl, ?_⟩
  have hspares : ∀ a ∈ readOver, Spares .theme a := by simp [readOver, Spares]
  exact saved_served anyFormat {} 40 (by decide) [.call (), .load 0] readOver _ _ _ rfl mintTheme
    rfl rfl .theme _ _ List.mem_cons_self rfl hspares (by decide) rfl 2 _ 10040 rfl (by decide)

end served

end BookHouse
