/-
Which recipient is unwrapped (`crypto/envelope.rs`, `select_recipient`).

The choice goes by a position in the list of recipients, and the position by what the
recipients are called: the first that names the CA, or the one key-transport recipient
there is. What else is in the list and what the recipients hold does not matter:
`recipient_selection`.
-/
import Blapki.Envelope
import Blapki.FirstMatch

set_option autoImplicit false

namespace Blapki

open FirstMatch

namespace Envelope

variable {X : Crates} {cert : Certificate}

/-- The recipient names the certificate, by issuer and serial or by its subject key
identifier. -/
def Names (X : Crates) (cert : Certificate) (ktri : KeyTransRecipientInfo) : Prop :=
  ktri.rid = .IssuerAndSerialNumber
      ⟨cert.tbs_certificate.issuer, cert.tbs_certificate.serial_number⟩ ∨
    ∃ critical ski, X.get_subject_key_identifier cert.tbs_certificate = .ok (some (critical, ski)) ∧
      ktri.rid = .SubjectKeyIdentifier ski

/-- The source asks for just that. -/
theorem ktri_matches_iff {ktri : KeyTransRecipientInfo} :
    ktri_matches X ktri cert = true ↔ Names X cert ktri := by
  unfold ktri_matches Names
  cases ktri.rid with
  | IssuerAndSerialNumber ias =>
      rw [decide_eq_true_eq]
      constructor
      · rintro ⟨hissuer, hserial⟩
        left
        rw [← hissuer, ← hserial]
      · rintro (hrid | ⟨_, _, _, hno⟩)
        · obtain rfl := RecipientIdentifier.IssuerAndSerialNumber.inj hrid
          exact ⟨rfl, rfl⟩
        · cases hno
  | SubjectKeyIdentifier ski =>
      -- A certificate whose identifier does not decode has none.
      rcases hget : X.get_subject_key_identifier cert.tbs_certificate with
        e | _ | ⟨critical, ca_ski⟩
      · refine iff_of_false Bool.false_ne_true ?_
        rintro (hno | ⟨_, _, hno, _⟩)
        · cases hno
        · cases hno
      · refine iff_of_false Bool.false_ne_true ?_
        rintro (hno | ⟨_, _, hno, _⟩)
        · cases hno
        · cases hno
      · rw [decide_eq_true_eq]
        constructor
        · rintro rfl
          exact .inr ⟨critical, ca_ski, rfl, rfl⟩
        · rintro (hno | ⟨_, _, hsame, hrid⟩)
          · cases hno
          · cases hsame
            exact (RecipientIdentifier.SubjectKeyIdentifier.inj hrid).symm

/-! ## Positions -/

/-- A recipient of key transport. -/
def key_transport : RecipientInfo → Option KeyTransRecipientInfo
  | .Ktri ktri => some ktri
  | _ => none

/-- One that names the certificate. -/
def names (X : Crates) (cert : Certificate) (info : RecipientInfo) : Bool :=
  (key_transport info).any (ktri_matches X · cert)

/-- The position of the recipient to unwrap. -/
def position (X : Crates) (infos : List RecipientInfo) (cert : Certificate) : Option Nat :=
  match infos.findIdx? (names X cert) with
  | some i => some i
  | none =>
      if infos.countP (fun info => (key_transport info).isSome) = 1 then
        infos.findIdx? fun info => (key_transport info).isSome
      else none

theorem key_transport_eq_some {info : RecipientInfo} {ktri : KeyTransRecipientInfo} :
    key_transport info = some ktri ↔ info = .Ktri ktri := by
  cases info with
  | Ktri k => exact ⟨fun h => congrArg _ (Option.some.inj h), fun h =>
      congrArg some (RecipientInfo.Ktri.inj h)⟩
  | _ => exact ⟨fun h => (by cases h), fun h => (by cases h)⟩

theorem names_iff {info : RecipientInfo} :
    names X cert info = true ↔ ∃ ktri, info = .Ktri ktri ∧ Names X cert ktri := by
  rw [names, Option.any_eq_true]
  exact exists_congr fun ktri => and_congr key_transport_eq_some ktri_matches_iff

/-- The first key-transport recipient that names the certificate. -/
theorem find?_ktris (enveloped : EnvelopedData) :
    (ktris enveloped).find? (ktri_matches X · cert)
      = ((enveloped.recip_infos.findIdx? (names X cert)).bind fun i =>
          enveloped.recip_infos[i]?).bind key_transport := by
  rw [← find?_eq_getElem?]
  exact List.find?_filterMap

/-- The recipients of key transport, as they stand in the list. -/
theorem filter_key_transport (infos : List RecipientInfo) :
    infos.filter (fun info => (key_transport info).isSome)
      = (infos.filterMap key_transport).map .Ktri := by
  induction infos with
  | nil => rfl
  | cons info infos ih =>
      rw [List.filterMap_cons, List.filter_cons]
      cases hkt : key_transport info with
      | none => exact ih
      | some ktri => rw [Option.isSome_some, if_pos rfl, List.map_cons, ih,
          key_transport_eq_some.mp hkt]

/-- A lone key-transport recipient stands where the first one stands. -/
theorem lone_iff {infos : List RecipientInfo} {ktri : KeyTransRecipientInfo} :
    infos.filterMap key_transport = [ktri] ↔
      infos.countP (fun info => (key_transport info).isSome) = 1 ∧
        infos.find? (fun info => (key_transport info).isSome) = some (.Ktri ktri) := by
  rw [List.countP_eq_length_filter, ← List.head?_filter, filter_key_transport, List.length_map,
    List.head?_map]
  constructor
  · intro h
    rw [h]
    exact ⟨rfl, rfl⟩
  · rintro ⟨hlength, hhead⟩
    obtain ⟨k, hk⟩ := List.length_eq_one_iff.mp hlength
    rw [hk] at hhead
    obtain rfl := RecipientInfo.Ktri.inj (Option.some.inj hhead)
    exact hk

/-- With none that names the certificate, a lone recipient is returned. -/
theorem select_unnamed {enveloped : EnvelopedData} {ktri : KeyTransRecipientInfo}
    (h : (ktris enveloped).find? (ktri_matches X · cert) = none) :
    select_recipient X enveloped cert = .ok ktri ↔ ktris enveloped = [ktri] := by
  rw [select_recipient, h]
  rcases ktris enveloped with _ | ⟨only, _ | ⟨_, _⟩⟩
  · exact ⟨fun hno => (by cases hno), fun hno => (by cases hno)⟩
  · exact ⟨fun hsel => congrArg (fun k => [k]) (Except.ok.inj hsel), fun hlone =>
      congrArg Except.ok (List.cons.inj hlone).1⟩
  · exact ⟨fun hno => (by cases hno), fun hno => (by cases hno)⟩

/-- What is returned is what stands at the position. -/
theorem select_recipient_eq_ok {enveloped : EnvelopedData} {ktri : KeyTransRecipientInfo} :
    select_recipient X enveloped cert = .ok ktri ↔
      ∃ i, position X enveloped.recip_infos cert = some i ∧
        enveloped.recip_infos[i]? = some (.Ktri ktri) := by
  have hfind := @find?_ktris X cert enveloped
  rw [position]
  cases hnamed : enveloped.recip_infos.findIdx? (names X cert) with
  | some i =>
      obtain ⟨hi, hnames, _⟩ := List.findIdx?_eq_some_iff_getElem.mp hnamed
      -- What names the certificate is of key transport.
      obtain ⟨k, hk, _⟩ := names_iff.mp hnames
      have hat : enveloped.recip_infos[i]? = some (.Ktri k) := by
        rw [List.getElem?_eq_getElem hi, hk]
      rw [hnamed, Option.bind_some, hat] at hfind
      rw [select_recipient, hfind]
      constructor
      · intro hsel
        obtain rfl : k = ktri := Except.ok.inj hsel
        exact ⟨i, rfl, hat⟩
      · rintro ⟨j, hj, hktri⟩
        obtain rfl := Option.some.inj hj
        obtain rfl := RecipientInfo.Ktri.inj (Option.some.inj (hat.symm.trans hktri))
        rfl
  | none =>
      rw [hnamed] at hfind
      rw [select_unnamed hfind]
      refine lone_iff.trans ?_
      rw [find?_eq_getElem?]
      split_ifs with hcount
      · rw [Option.bind_eq_some_iff]
        exact and_iff_right hcount
      · refine iff_of_false (fun h => hcount h.1) ?_
        rintro ⟨_, hno, _⟩
        cases hno

/-! ## The selection -/

/-- The recipient with another encrypted key in it. -/
inductive Rekeyed : RecipientInfo → RecipientInfo → Prop
  | ktri (ktri : KeyTransRecipientInfo) (enc_key : Bytes) :
      Rekeyed (.Ktri ktri) (.Ktri { ktri with enc_key := enc_key })
  | kari (raw raw' : Any) : Rekeyed (.Kari raw) (.Kari raw')
  | kekri (raw raw' : Any) : Rekeyed (.Kekri raw) (.Kekri raw')
  | pwri (raw raw' : Any) : Rekeyed (.Pwri raw) (.Pwri raw')
  | ori (raw raw' : Any) : Rekeyed (.Ori raw) (.Ori raw')

/-- The position does not depend on the keys. -/
theorem position_rekeyed {infos infos' : List RecipientInfo}
    (h : List.Forall₂ Rekeyed infos infos') : position X infos' cert = position X infos cert := by
  have hnames : infos'.map (names X cert) = infos.map (names X cert) := by
    refine map_eq_of_forall₂ (List.Forall₂.flip h) fun info' info hkey => ?_
    cases hkey <;> rfl
  have hkind : infos'.map (fun info => (key_transport info).isSome)
      = infos.map fun info => (key_transport info).isSome := by
    refine map_eq_of_forall₂ (List.Forall₂.flip h) fun info' info hkey => ?_
    cases hkey <;> rfl
  rw [position, position, findIdx?_congr hnames, findIdx?_congr hkind, countP_congr hkind]

/-- What is inserted beside those that name the certificate is not looked at. -/
theorem find?_ktris_of_insertions {enveloped enveloped' : EnvelopedData}
    (h : Relation.EqvGen (Inserted (names X cert)) enveloped.recip_infos enveloped'.recip_infos) :
    (ktris enveloped').find? (ktri_matches X · cert)
      = (ktris enveloped).find? (ktri_matches X · cert) := by
  rw [find?_ktris, find?_ktris, ← find?_eq_getElem?, ← find?_eq_getElem?, find?_of_insertions h]

/-- **Recipient selection.** What is returned stands at the position, which keys do not
move. If some key-transport recipient names the CA, one that does is returned, and the
same one whatever other recipients come or go. If none does, the key-transport recipient
is returned when there is exactly one, and nothing otherwise. -/
theorem recipient_selection (X : Crates) (enveloped : EnvelopedData) (cert : Certificate) :
    ((∃ ktri ∈ ktris enveloped, Names X cert ktri) →
      ∃ ktri ∈ ktris enveloped, Names X cert ktri ∧
        select_recipient X enveloped cert = .ok ktri ∧
        ∀ enveloped' : EnvelopedData, Relation.EqvGen (Inserted (names X cert))
          enveloped.recip_infos enveloped'.recip_infos →
            select_recipient X enveloped' cert = .ok ktri) ∧
    ((∀ ktri ∈ ktris enveloped, ¬ Names X cert ktri) →
      ∀ ktri, select_recipient X enveloped cert = .ok ktri ↔ ktris enveloped = [ktri]) ∧
    (∀ ktri, select_recipient X enveloped cert = .ok ktri ↔
      ∃ i, position X enveloped.recip_infos cert = some i ∧
        enveloped.recip_infos[i]? = some (.Ktri ktri)) ∧
    ∀ enveloped' : EnvelopedData, List.Forall₂ Rekeyed enveloped.recip_infos
      enveloped'.recip_infos → position X enveloped'.recip_infos cert
        = position X enveloped.recip_infos cert := by
  refine ⟨?_, ?_, fun ktri => select_recipient_eq_ok, fun enveloped' h => position_rekeyed h⟩
  · rintro ⟨k, hk, hnames⟩
    have hsome : ((ktris enveloped).find? (ktri_matches X · cert)).isSome = true :=
      List.find?_isSome.mpr ⟨k, hk, ktri_matches_iff.mpr hnames⟩
    -- what is found is found again among recipients the certificate does not match
    obtain ⟨ktri, hfind⟩ := Option.isSome_iff_exists.mp hsome
    have hmatch : ktri_matches X ktri cert = true :=
      List.find?_some (p := (ktri_matches X · cert)) hfind
    refine ⟨ktri, List.mem_of_find?_eq_some hfind, ktri_matches_iff.mp hmatch, ?_, ?_⟩
    · rw [select_recipient, hfind]
    · intro enveloped' h
      rw [select_recipient, find?_ktris_of_insertions h, hfind]
  · intro hnone ktri
    refine select_unnamed (List.find?_eq_none.mpr fun k hk hmatch => ?_)
    exact hnone k hk (ktri_matches_iff.mp hmatch)

end Envelope

end Blapki
