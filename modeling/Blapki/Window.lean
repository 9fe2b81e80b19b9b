/-
The dates of a CRL (`http/crl.rs`, `to_time` and `build_crl`).

The two dates stand in the list as RFC 5280 has them, a UTCTime of two-digit years before 2050
and a GeneralizedTime from then on, and `of_contents_contents` says that either text reads back
as the second it was written for. How long the list is valid is a constant of the responder:
`crl_window_iff` says for which configurations that is what they ask for.
-/
import Blapki.Calendar
import Blapki.Publication
import Blapki.Signing

set_option autoImplicit false

namespace Blapki

open Effect

/-! ## The components of a time -/

namespace DateTime

/-- 1970-01-01, from the first of March of the year 0. -/
def EPOCH_DAY : Nat := 719468

theorem year_range (d : DateTime) : 1970 ≤ d.year ∧ d.year ≤ 9999 := by
  have hmax : d.unix_secs ≤ 253402300799 := d.in_range
  apply Calendar.year_range
  · unfold march_day
    omega
  · unfold march_day
    omega

theorem month_lt (d : DateTime) : d.month < 100 := by
  have h := Calendar.month_le d.march_day
  rw [month]
  omega

theorem day_lt (d : DateTime) : d.day < 100 := by
  have h := Calendar.day_le d.march_day
  rw [day]
  omega

theorem hour_lt (d : DateTime) : d.hour < 100 := by
  unfold hour
  omega

theorem minutes_lt (d : DateTime) : d.minutes < 100 := by
  unfold minutes
  omega

theorem seconds_lt (d : DateTime) : d.seconds < 100 := by
  unfold seconds
  omega

/-- `DateTime::new`: the time with these components, if there is one. -/
def new (year month day hour minutes seconds : Nat) : Option DateTime :=
  let secs := (Calendar.days_from_civil year month day - EPOCH_DAY) * 86400 + hour * 3600 +
    minutes * 60 + seconds
  if h : secs ≤ MAX then
    let d : DateTime := ⟨secs, h⟩
    if d.year = year ∧ d.month = month ∧ d.day = day ∧ d.hour = hour ∧ d.minutes = minutes ∧
        d.seconds = seconds then some d
    else none
  else none

theorem secs_of_components (d : DateTime) :
    (Calendar.days_from_civil d.year d.month d.day - EPOCH_DAY) * 86400 + d.hour * 3600 +
      d.minutes * 60 + d.seconds = d.unix_secs := by
  rw [year, month, day, Calendar.days_from_civil_of]
  unfold march_day EPOCH_DAY hour minutes seconds
  omega

/-- A time is the one with its components. -/
theorem new_components (d : DateTime) :
    new d.year d.month d.day d.hour d.minutes d.seconds = some d := by
  unfold new
  simp only [secs_of_components]
  rw [dif_pos d.in_range]
  simp only [and_self, if_true]

end DateTime

/-! ## UTCTime and GeneralizedTime -/

namespace Time

/-- Two decimal digits. -/
def two_digits (n : Nat) : Bytes := [UInt8.ofNat (48 + n / 10), UInt8.ofNat (48 + n % 10)]

def digit (b : UInt8) : Option Nat :=
  if 48 ≤ b.toNat ∧ b.toNat ≤ 57 then some (b.toNat - 48) else none

def decimal (a b : UInt8) : Option Nat := do
  let x ← digit a
  let y ← digit b
  pure (10 * x + y)

theorem digit_ofNat : ∀ n < 10, digit (UInt8.ofNat (48 + n)) = some n := by decide

theorem decimal_two_digits (n : Nat) (h : n < 100) :
    decimal (UInt8.ofNat (48 + n / 10)) (UInt8.ofNat (48 + n % 10)) = some n := by
  have htens : n / 10 < 10 := by omega
  have hones : n % 10 < 10 := by omega
  unfold decimal
  rw [digit_ofNat _ htens, digit_ofNat _ hones]
  simp only [Option.bind_eq_bind, Option.bind_some, Option.pure_def, Nat.div_add_mod]

/-- The letter behind a time in UTC. -/
def ZULU : UInt8 := 0x5a

/-- `MMDDHHMMSSZ`. -/
def fields (d : DateTime) : Bytes :=
  two_digits d.month ++ two_digits d.day ++ two_digits d.hour ++ two_digits d.minutes ++
    two_digits d.seconds ++ [ZULU]

/-- The month, the day, the hour, the minutes and the seconds. -/
def components : Bytes → Option (Nat × Nat × Nat × Nat × Nat)
  | [a, b, c, d, e, f, g, h, i, j, z] =>
      if z = ZULU then do
        let month ← decimal a b
        let day ← decimal c d
        let hour ← decimal e f
        let minutes ← decimal g h
        let seconds ← decimal i j
        pure (month, day, hour, minutes, seconds)
      else none
  | _ => none

def of_fields (year : Nat) (text : Bytes) : Option DateTime :=
  match components text with
  | some (month, day, hour, minutes, seconds) =>
      DateTime.new year month day hour minutes seconds
  | none => none

theorem components_fields (d : DateTime) :
    components (fields d) = some (d.month, d.day, d.hour, d.minutes, d.seconds) := by
  have hmonth := decimal_two_digits _ d.month_lt
  have hday := decimal_two_digits _ d.day_lt
  have hhour := decimal_two_digits _ d.hour_lt
  have hminutes := decimal_two_digits _ d.minutes_lt
  have hseconds := decimal_two_digits _ d.seconds_lt
  unfold fields two_digits
  generalize d.month = month at hmonth ⊢
  generalize d.day = day at hday ⊢
  generalize d.hour = hour at hhour ⊢
  generalize d.minutes = minutes at hminutes ⊢
  generalize d.seconds = seconds at hseconds ⊢
  simp only [List.cons_append, List.nil_append]
  rw [components, if_pos rfl, hmonth, hday, hhour, hminutes, hseconds]
  rfl

theorem of_fields_fields (d : DateTime) : of_fields d.year (fields d) = some d := by
  rw [of_fields, components_fields]
  exact d.new_components

/-- The tags of UTCTime and GeneralizedTime. -/
def UTC_TIME : UInt8 := 0x17
def GENERALIZED_TIME : UInt8 := 0x18

def tag : Time → UInt8
  | .UtcTime _ => UTC_TIME
  | .GeneralTime _ => GENERALIZED_TIME

/-- What stands in the field: the year has two digits in one form and four in the other. -/
def contents : Time → Bytes
  | .UtcTime d => two_digits (d.year % 100) ++ fields d
  | .GeneralTime d => two_digits (d.year / 100) ++ (two_digits (d.year % 100) ++ fields d)

/-- RFC 5280: two digits from 50 on are of the last century. -/
def century_of (yy : Nat) : Nat := if 50 ≤ yy then 1900 + yy else 2000 + yy

/-- `YYMMDDHHMMSSZ`. -/
def of_utc : Bytes → Option Time
  | a :: b :: rest => do
      let yy ← decimal a b
      let d ← of_fields (century_of yy) rest
      pure (.UtcTime d)
  | _ => none

/-- `YYYYMMDDHHMMSSZ`. -/
def of_generalized : Bytes → Option Time
  | a :: b :: c :: e :: rest => do
      let cc ← decimal a b
      let yy ← decimal c e
      let d ← of_fields (100 * cc + yy) rest
      pure (.GeneralTime d)
  | _ => none

/-- How the field is read. -/
def of_contents (tag : UInt8) (contents : Bytes) : Option Time :=
  if tag = UTC_TIME then of_utc contents
  else if tag = GENERALIZED_TIME then of_generalized contents
  else none

theorem of_utc_two_digits {yy : Nat} (h : yy < 100) (rest : Bytes) :
    of_utc (two_digits yy ++ rest) = (of_fields (century_of yy) rest).map .UtcTime := by
  rw [two_digits, List.cons_append, List.cons_append, List.nil_append, of_utc,
    decimal_two_digits yy h, Option.map_eq_bind]
  rfl

theorem of_generalized_two_digits {cc yy : Nat} (hcc : cc < 100) (hyy : yy < 100) (rest : Bytes) :
    of_generalized (two_digits cc ++ (two_digits yy ++ rest))
      = (of_fields (100 * cc + yy) rest).map .GeneralTime := by
  rw [two_digits, two_digits, List.cons_append, List.cons_append, List.nil_append,
    List.cons_append, List.cons_append, List.nil_append, of_generalized,
    decimal_two_digits cc hcc, decimal_two_digits yy hyy, Option.map_eq_bind]
  rfl

/-- Two digits are enough for the years before 2050. -/
theorem century_of_year (d : DateTime) (h : d.year < 2050) : century_of (d.year % 100) = d.year := by
  have hyear := d.year_range
  unfold century_of
  split_ifs <;> omega

/-- **The contents read back**, unless a UTCTime is of a year from 2050 on. -/
theorem of_contents_contents (time : Time)
    (h : time.tag = UTC_TIME → time.to_date_time.year < 2050) :
    of_contents time.tag time.contents = some time := by
  cases time with
  | UtcTime d =>
      have hlow : d.year % 100 < 100 := Nat.mod_lt _ (by decide)
      rw [tag, contents, of_contents, if_pos rfl, of_utc_two_digits hlow,
        century_of_year d (h rfl), of_fields_fields, Option.map_some]
  | GeneralTime d =>
      have hlow : d.year % 100 < 100 := Nat.mod_lt _ (by decide)
      have hhigh : d.year / 100 < 100 := by
        have hrange := d.year_range
        omega
      rw [tag, contents, of_contents, if_neg (by decide), if_pos rfl,
        of_generalized_two_digits hhigh hlow, Nat.div_add_mod, of_fields_fields, Option.map_some]

end Time

/-! ## The dates of a CRL -/

namespace Crl

variable {X : Crates}

/-- A date of a list stands for an instant: it is of its second, in the form for its year,
and reads back. -/
structure Dated (time : Time) (t : SystemTime) : Prop where
  instant : (time.to_date_time.unix_secs : Int) = t.secs
  utc_iff : time.tag = Time.UTC_TIME ↔ time.to_date_time.year < 2050
  generalized_iff : time.tag = Time.GENERALIZED_TIME ↔ 2050 ≤ time.to_date_time.year
  reads : Time.of_contents time.tag time.contents = some time

theorem to_time_dated {t : SystemTime} {time : Time} (h : to_time t = .ok time) : Dated time t := by
  obtain ⟨d, hd, rfl⟩ := to_time_eq_ok.mp h
  have hsecs := (DateTime.from_system_time_eq_ok.mp hd).2
  have htags : Time.UTC_TIME ≠ Time.GENERALIZED_TIME := by decide
  by_cases hyear : d.year < 2050
  · rw [if_pos hyear]
    refine ⟨hsecs.symm, iff_of_true rfl hyear, ?_, Time.of_contents_contents _ fun _ => hyear⟩
    exact iff_of_false htags (Nat.not_le.mpr hyear)
  · rw [if_neg hyear]
    have htag : (Time.GeneralTime d).tag ≠ Time.UTC_TIME := htags.symm
    refine ⟨hsecs.symm, iff_of_false htag hyear, ?_, Time.of_contents_contents _ fun hno => ?_⟩
    · exact iff_of_true rfl (Nat.le_of_not_lt hyear)
    · exact absurd hno htag

/-- The octets are a list with these two dates. -/
def Window (X : Crates) (der : Bytes) (this_update next_update : SystemTime) : Prop :=
  ∃ crl, X.Encodes der crl ∧
    Dated crl.tbs_cert_list.this_update this_update ∧
    ∃ next, crl.tbs_cert_list.next_update = some next ∧ Dated next next_update

/-- A list is valid for a day from when it was made. -/
theorem crl_at_window (hlaw : X.StatusLaw)
    (hbits : ∀ s b, X.signature_to_bitstring s = .ok b → b = s) {ca : CertificateAuthority}
    {rows : List RevokedEntry} {now : SystemTime} {der : Bytes}
    (h : crl_at X ca rows now = .ok der) :
    Window X der now (now.add_secs CRL_LIFETIME_SECS) := by
  simp only [crl_at, sign_crl, bind_eq_ok, map_err_eq_ok] at h
  obtain ⟨entries, _, alg, _, this_update, hthis, next_update, hnext, _, _, s, _, b, hb, hder⟩ := h
  obtain rfl := hbits _ _ hb
  exact ⟨_, ⟨hder, hlaw.certificate_list _ _ hder⟩, to_time_dated hthis, next_update, rfl,
    to_time_dated hnext⟩

/-- A list that is served was made when the clock was read. -/
theorem crl_served {state : AppState} {ca_id : String} {ca : CertificateAuthority}
    (hca : state.cas.lookup ca_id = some ca) {tr : Trace} {response : Response}
    (h : Returns (crl X state ca_id) tr (.ok response)) :
    ∃ rows now, crl_at X ca rows now = .ok response.body ∧ ∀ t, ⟨Op.now, t⟩ ∈ tr → t = now := by
  obtain ⟨der, t₁, t₂, rfl, hbuild, hpure⟩ := returns_bind_ok.mp h
  obtain ⟨rfl, hresponse⟩ := returns_pure.mp hpure
  rw [build_crl, lift_bind_of_ok (ok_or_else_eq_ok.mpr hca)] at hbuild
  rcases repo.returns_query_bind.mp hbuild with ⟨_, _, hno⟩ | ⟨rows, t₃, rfl, h₁⟩
  · cases hno
  obtain ⟨now, t₄, rfl, h₂⟩ := returns_request_bind.mp h₁
  obtain ⟨rfl, hder⟩ := returns_lift.mp h₂
  refine ⟨rows, now, ?_, fun t hmem => ?_⟩
  · rw [Except.ok.inj hresponse]
    exact hder.symm
  · -- the clock is the second thing that is looked at, and the last
    rw [List.append_nil, List.mem_cons, List.mem_singleton] at hmem
    rcases hmem with hno | hmem
    · cases hno
    · cases hmem
      rfl

/-- Two instants so far apart fall in seconds so far apart. -/
theorem secs_add_secs (t : SystemTime) (secs : Nat) : (t.add_secs secs).secs = t.secs + secs := by
  simp only [SystemTime.add_secs, SystemTime.secs]
  omega

theorem Window.next_secs (hlaw : X.StatusLaw) {der : Bytes} {t u u' : SystemTime}
    (h : Window X der t u) (h' : Window X der t u') : u.secs = u'.secs := by
  obtain ⟨crl, hencodes, _, next, hnext, hdated⟩ := h
  obtain ⟨crl', hencodes', _, next', hnext', hdated'⟩ := h'
  obtain rfl := hlaw.list_injective crl crl' der hencodes.written hencodes'.written
  obtain rfl := Option.some.inj (hnext.symm.trans hnext')
  rw [← hdated.instant, hdated'.instant]

/-- **How long a CRL is valid.** The list that is served for a configured CA is dated to
when it is served and to when the configured time has passed exactly when that is a day. -/
theorem crl_window_iff (hlaw : X.StatusLaw)
    (hbits : ∀ s b, X.signature_to_bitstring s = .ok b → b = s) {settings : Settings}
    {tr : Trace} {state : AppState}
    (hbuild : Returns (app.build_state X settings) tr (.ok state)) {cfg : CaConfig}
    (hcfg : cfg ∈ settings.ca) {tr' : Trace} {response : Response}
    (hserved : Returns (crl X state cfg.id) tr' (.ok response)) {now : SystemTime}
    (hclock : ⟨Op.now, now⟩ ∈ tr') :
    (now.secs + CRL_LIFETIME_SECS < 2 ^ 63 ∧
      Window X response.body now (now.add_secs (cfg.crl_lifetime_hours.toNat * 3600))) ↔
    cfg.crl_lifetime_hours = 24 := by
  obtain ⟨loaded, validators, hbuilt⟩ := app.build_state_built hbuild
  obtain ⟨ca, hca⟩ := hbuilt.exists_ca hcfg
  obtain ⟨rows, now', hcrl, hnow⟩ := crl_served hca hserved
  obtain rfl := hnow now hclock
  have hwindow := crl_at_window hlaw hbits hcrl
  constructor
  · rintro ⟨_, hconfigured⟩
    have hsecs := hwindow.next_secs hlaw hconfigured
    rw [secs_add_secs, secs_add_secs] at hsecs
    have hhours : cfg.crl_lifetime_hours.toNat = 24 := by
      unfold CRL_LIFETIME_SECS at hsecs
      omega
    exact UInt64.toNat_inj.mp hhours
  · intro hday
    constructor
    · have hlast : (now.add_secs CRL_LIFETIME_SECS).nanos ≤ 253402300799 * 1000000000 :=
        (crl_at_next_update hcrl).2
      have hsecs := secs_add_secs now CRL_LIFETIME_SECS
      unfold SystemTime.secs at hsecs ⊢
      omega
    · rw [hday]
      exact hwindow

/-! ## Two configurations -/

/-- A CA without revoked rows has a list at every time that can be represented, a day before
the last. -/
theorem exists_served {state : AppState} {ca_id : String} {ca : CertificateAuthority}
    (hca : state.cas.lookup ca_id = some ca)
    (hsigns : X.SignsStatus (CaSigningKey.new ca.private_key)) {now : SystemTime}
    (hnow : DateTime.Representable now)
    (hnext : DateTime.Representable (now.add_secs CRL_LIFETIME_SECS)) :
    ∃ tr response, Returns (crl X state ca_id) tr (.ok response) ∧ ⟨Op.now, now⟩ ∈ tr := by
  obtain ⟨der, hder⟩ := (exists_crl_at_iff hsigns hnow).mpr
    ⟨fun _ hno => absurd hno List.not_mem_nil, hnext⟩
  have hbuild : Returns (build_crl X state ca_id)
      [⟨Op.db (.select_revoked ca_id), .ok []⟩, ⟨Op.now, now⟩] (.ok der) := by
    rw [build_crl, lift_bind_of_ok (ok_or_else_eq_ok.mpr hca)]
    refine repo.returns_query_bind.mpr (.inr ⟨[], _, rfl, ?_⟩)
    exact returns_request_bind.mpr ⟨now, [], rfl, returns_lift.mpr ⟨rfl, hder.symm⟩⟩
  refine ⟨_, _, returns_bind_ok.mpr ⟨der, _, [], (List.append_nil _).symm, hbuild,
    returns_pure.mpr ⟨rfl, rfl⟩⟩, ?_⟩
  exact List.mem_cons_of_mem _ List.mem_cons_self

/-- A CA is loaded whatever the lifetime of its lists. -/
theorem load_with_lifetime (cfg : CaConfig) (hours : UInt64) :
    app.load_or_bootstrap_ca X { cfg with crl_lifetime_hours := hours }
      = app.load_or_bootstrap_ca X cfg := rfl

/-- The CA of the device with lists of this lifetime, and one that is served. -/
theorem device_served (hours : UInt64) :
    ∃ tr state tr' response, Returns (app.build_state Reference.crates
        (app.one_ca { Device.ca_config Device.ca_key with crl_lifetime_hours := hours })) tr
        (.ok state) ∧
      Returns (crl Reference.crates state "root") tr' (.ok response) ∧
      ⟨Op.now, Device.now⟩ ∈ tr' := by
  have hload := Device.ca_pair_loads
  rw [← load_with_lifetime _ hours] at hload
  obtain ⟨tr, state, hbuild, hca⟩ := app.build_one_ca hload
  have hnow : DateTime.Representable Device.now := by decide
  obtain ⟨tr', response, hserved, hclock⟩ := exists_served hca (Reference.signs_status _) hnow
    (by decide)
  exact ⟨tr, state, tr', response, hbuild, hserved, hclock⟩

/-- A day is what is configured where nothing is. -/
theorem device_crl_window : ∃ tr state tr' response,
    Returns (app.build_state Reference.crates (app.one_ca (Device.ca_config Device.ca_key))) tr
      (.ok state) ∧
    Returns (crl Reference.crates state "root") tr' (.ok response) ∧
    Window Reference.crates response.body Device.now (Device.now.add_secs (24 * 3600)) := by
  obtain ⟨tr, state, tr', response, hbuild, hserved, hclock⟩ := device_served 24
  have hwindow := (crl_window_iff Reference.status_law Reference.rsa_law.bitstring hbuild
    List.mem_cons_self hserved hclock).mpr rfl
  exact ⟨tr, state, tr', response, hbuild, hserved, hwindow.2⟩

/-- A list that is to be valid for an hour is valid for a day. -/
theorem device_crl_hour : ¬ ∀ (settings : Settings) tr state cfg tr' response now,
    Returns (app.build_state Reference.crates settings) tr (.ok state) → cfg ∈ settings.ca →
    Returns (crl Reference.crates state cfg.id) tr' (.ok response) → ⟨Op.now, now⟩ ∈ tr' →
    DateTime.Representable now →
    DateTime.Representable (now.add_secs (cfg.crl_lifetime_hours.toNat * 3600)) →
    Window Reference.crates response.body now
      (now.add_secs (cfg.crl_lifetime_hours.toNat * 3600)) := by
  intro hclaim
  obtain ⟨tr, state, tr', response, hbuild, hserved, hclock⟩ := device_served 1
  have hlater : DateTime.Representable (Device.now.add_secs ((1 : UInt64).toNat * 3600)) := by decide
  have hhour := hclaim _ tr state _ tr' response Device.now hbuild List.mem_cons_self hserved
    hclock (by decide) hlater
  obtain ⟨ca, hca⟩ : ∃ ca, state.cas.lookup "root" = some ca := by
    obtain ⟨loaded, validators, hbuilt⟩ := app.build_state_built hbuild
    exact hbuilt.exists_ca List.mem_cons_self
  obtain ⟨rows, now, hcrl, hnow⟩ := crl_served hca hserved
  obtain rfl := hnow _ hclock
  have hday := crl_at_window Reference.status_law Reference.rsa_law.bitstring hcrl
  have hsecs := hday.next_secs Reference.status_law hhour
  exact absurd hsecs (by decide)

end Crl

end Blapki
