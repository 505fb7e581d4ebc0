import ZoneMta.Native.Suppression
import ZoneMta.Spec.Routing
import ZoneMta.Spec.ShiftCorrect

/-!
# Suppression correctness

An entry and a recipient are brought to their normal forms in different places. They meet in one
string, except that `push` takes the brackets of an address literal away and the entry keeps them.

## Key results

- `normal_normalizeAddress`, `domain_afterLast`: what `shift` makes of a recipient is in normal form
- `matches_iff`: when an entry is found for a delivery
- `withheld_iff`: when `shift` hands out no delivery that an entry is for
- `replies_of_shift`: `shift` while no one else calls the database
-/

namespace ZoneMta

open ForStd (afterLast beforeLast)
open AddressTools (normalizeAddress normalizeDomain)

/-- What holds of `toLowerCase`, of `trim` and of `toASCII`, which encodes the labels of a domain
    that are not ASCII with lower case letters, digits and hyphens. -/
structure Strings.Laws (str : Strings) : Prop where
  toASCII_toASCII : ∀ s, str.toASCII (str.toASCII s) = str.toASCII s
  toASCII_of_ascii : ∀ s, (∀ c ∈ s.toList, c.val.toNat < 128) → str.toASCII s = s
  toASCII_lower : ∀ s, str.toLowerCase s = s → str.toLowerCase (str.toASCII s) = str.toASCII s
  toASCII_trim : ∀ s, str.trim s = s → str.trim (str.toASCII s) = str.toASCII s
  toASCII_at : ∀ s, '@' ∉ s.toList → '@' ∉ (str.toASCII s).toList
  trim_at : ∀ u d, str.trim u = u → str.trim d = d → str.trim (u ++ "@" ++ d) = u ++ "@" ++ d
  mem_trim : ∀ s, ∀ c ∈ (str.trim s).toList, c ∈ s.toList
  mem_lower : ∀ s, ∀ c ∈ (str.toLowerCase s).toList, c ∈ ['@', '[', ']'] → c ∈ s.toList
  lower_empty : str.toLowerCase "" = ""

namespace Suppression

variable {str : Strings} (laws : str.Laws)
include laws

/-! ## Normal forms -/

theorem trim_empty : str.trim "" = "" := by
  have hnil : (str.trim "").toList = [] := by
    apply List.eq_nil_iff_forall_not_mem.mpr
    intro c hc
    exact absurd (laws.mem_trim "" c hc) (by simp)
  exact String.toList_inj.mp hnil

theorem lower_normalizeDomain (domain : String) :
    str.toLowerCase (normalizeDomain str domain) = normalizeDomain str domain := by
  refine laws.toASCII_lower _ ?_
  rw [← str.trim_lower, str.lower_lower]

theorem trim_normalizeDomain (domain : String) :
    str.trim (normalizeDomain str domain) = normalizeDomain str domain :=
  laws.toASCII_trim _ (str.trim_trim _)

/-- A domain in normal form stays as it is. -/
theorem normalizeDomain_normalizeDomain (domain : String) :
    normalizeDomain str (normalizeDomain str domain) = normalizeDomain str domain := by
  rw [normalizeDomain, lower_normalizeDomain laws, trim_normalizeDomain laws, normalizeDomain,
    laws.toASCII_toASCII]

theorem at_notMem_normalizeDomain {domain : String} (h : '@' ∉ domain.toList) :
    '@' ∉ (normalizeDomain str domain).toList := by
  refine laws.toASCII_at _ fun hmem => h ?_
  exact laws.mem_lower domain _ (laws.mem_trim _ _ hmem) (by simp)

/-- `toLowerCase().trim()` of a recipient only changes its case. -/
theorem normal_normalizeAddress (address : String) :
    str.normal (normalizeAddress str address) = str.toLowerCase (normalizeAddress str address) := by
  rw [ForStd.Text.normal, str.trim_lower, normalizeAddress]
  split
  · rw [trim_empty laws]
  · rw [laws.trim_at _ _ (str.trim_trim _) (trim_normalizeDomain laws _)]

/-- The domain of a recipient is in normal form. -/
theorem domain_afterLast (address : String) :
    ∃ domain, afterLast '@' (normalizeAddress str address) = normalizeDomain str domain := by
  rw [normalizeAddress]
  split
  · have hempty : afterLast '@' "" = "" := rfl
    refine ⟨"", ?_⟩
    rw [hempty, normalizeDomain, laws.lower_empty, trim_empty laws,
      laws.toASCII_of_ascii "" (by simp)]
  -- the part behind the last `@` has no `@`, also when it is encoded
  · have hat := at_notMem_normalizeDomain laws (ForStd.notMem_afterLast '@' address)
    exact ⟨_, ForStd.afterLast_append rfl _ hat⟩

omit laws in
theorem toList_recipientDomain (recipient : String) :
    (MailQueue.recipientDomain recipient).toList =
      (afterLast '@' recipient).toList.filter fun c => c != '[' && c != ']' := by
  rw [MailQueue.recipientDomain, String.toList_ofList]

/-- The domain of a recipient has no brackets. -/
def Unbracketed (recipient : String) : Prop :=
  ∀ c ∈ (afterLast '@' recipient).toList, c ≠ '[' ∧ c ≠ ']'

omit laws in
/-- `push` keeps a domain without brackets. -/
theorem recipientDomain_of_unbracketed {recipient : String} (h : Unbracketed recipient) :
    MailQueue.recipientDomain recipient = afterLast '@' recipient := by
  rw [← String.toList_inj, toList_recipientDomain, List.filter_eq_self]
  intro c hc
  simpa using h c hc

/-- What `shift` looks up for a domain with brackets has none. -/
theorem normal_recipientDomain_ne {recipient : String} (h : ¬Unbracketed recipient) :
    str.normal (MailQueue.recipientDomain recipient) ≠ afterLast '@' recipient := by
  intro heq
  apply h
  intro c hc
  by_contra hbracket
  -- neither case nor white space has to do with brackets, so `push` left this one in
  have hc' : c ∈ ['@', '[', ']'] := by
    rw [not_and_or, not_not, not_not] at hbracket
    rcases hbracket with rfl | rfl <;> simp
  rw [← heq] at hc
  have hmem := laws.mem_lower _ c (laws.mem_trim _ c hc) hc'
  rw [toList_recipientDomain] at hmem
  exact hbracket (by simpa using (List.mem_filter.mp hmem).2)

/-! ## Entries and deliveries -/

omit laws in
/-- The domain of an entry. -/
theorem newEntry_domain {address domain : String} {entry : Suppressed}
    (hentry : newEntry str address domain = some entry) :
    entry.domain = if str.toLowerCase (str.trim domain) ≠ "" then
      some (normalizeDomain str (str.toLowerCase (str.trim domain))) else none := by
  simp only [newEntry] at hentry
  split at hentry
  · exact nomatch hentry
  · rw [← Option.some.inj hentry]

omit laws in
theorem normalizeDomain_lower_trim (domain : String) :
    normalizeDomain str (str.toLowerCase (str.trim domain)) = normalizeDomain str domain := by
  rw [normalizeDomain, str.lower_lower, str.trim_lower, str.trim_trim, normalizeDomain,
    str.trim_lower]

/-- The recipient is on the list: by its address, or by its domain up to case, white space and
    encoding. -/
def Listed (str : Strings) (entry : Suppressed) (domain recipient : String) : Prop :=
  entry.address = some (str.toLowerCase recipient) ∨
    str.toLowerCase (str.trim domain) ≠ "" ∧
      normalizeDomain str (afterLast '@' recipient) = normalizeDomain str domain

/-- The delivery in memory is the one that `push` has made. -/
structure IsFor (document : Recipient) (delivery : Shifted) : Prop where
  recipient : delivery.recipient = document.recipient
  domain : delivery.domain = document.domain

/-- `shift` never hands out the delivery while the entry is on the list and the lookups succeed. -/
def Withheld (str : Strings) (entry : Suppressed) (document : Recipient) : Prop :=
  ∀ replies : List Replies,
    (∀ reply ∈ replies, ∃ list, reply.suppressionlist = some list ∧ entry ∈ list) →
      ∀ delivery, IsFor document delivery → shift str.normal replies ≠ some (.delivery delivery)

omit laws in
/-- A try that hands out a delivery has not found an entry for it. -/
theorem tryNext_delivery {normal : String → String} {reply : Replies} {delivery : Shifted}
    {list : List Suppressed} (hlist : reply.suppressionlist = some list)
    (h : tryNext normal reply = some (.delivery delivery)) :
    list.any (·.matches normal delivery) = false := by
  simp only [tryNext, hlist] at h
  split at h
  · exact nomatch h
  · exact nomatch h
  · split at h
    · exact nomatch h
    · split at h
      · exact nomatch h
      · exact nomatch h
      · split at h
        · split at h
          · exact nomatch h
          · exact nomatch h
        · next hany =>
          obtain rfl := Answer.delivery.inj (Option.some.inj h)
          exact Bool.eq_false_iff.mpr hany

omit laws in
/-- The delivery is withheld if and only if the lookup finds the entry. -/
theorem withheld_iff_matches {entry : Suppressed} {document : Recipient} :
    Withheld str entry document ↔
      ∀ delivery, IsFor document delivery → entry.matches str.normal delivery = true := by
  constructor
  · intro h delivery hfor
    by_contra hmiss
    -- a queue with the delivery and a list with the entry
    let fetched : Delivery := { document.document "" with
      recipient := delivery.recipient, domain := delivery.domain }
    let data : Metadata := { id := delivery.id, seq := delivery.seq, _lock := delivery._lock }
    have hdata : fetched.withMetadata data = delivery := rfl
    apply h [⟨some (some fetched), true, some (some data), some [entry], true⟩] ?_ delivery hfor
    · simp [shift, tryNext, hdata, hmiss]
    · intro reply hreply
      obtain rfl := List.mem_singleton.mp hreply
      exact ⟨[entry], rfl, List.mem_singleton_self entry⟩
  · intro h replies hreplies delivery hfor hshift
    -- the try that hands it out has looked at the whole list
    obtain ⟨reply, hreply, htry⟩ := List.exists_of_findSome?_eq_some hshift
    obtain ⟨list, hlist, hentry⟩ := hreplies reply hreply
    have hnone := tryNext_delivery hlist htry
    exact List.any_eq_false.mp hnone entry hentry (h delivery hfor)

omit laws in
/-- The documents of `push` for a message that came in through the SMTP interface. -/
theorem document_of_push {zones : SendingZones} {optionsDefaultZone : String} {date : Nat → Nat}
    {_id : Nat → ObjectId} {envelope : Envelope} {documents : List Recipient}
    {rcptTo : List String} (hto : envelope.to = envelopeTo str rcptTo)
    (hpush : MailQueue.push str zones optionsDefaultZone date _id envelope = .ok documents)
    {document : Recipient} (h : document ∈ documents) :
    ∃ address, document.recipient = normalizeAddress str address ∧
      document.domain = MailQueue.recipientDomain document.recipient := by
  rw [MailQueue.push] at hpush
  split at hpush
  · exact nomatch hpush
  · obtain rfl := Except.ok.inj hpush
    obtain ⟨i, hi, rfl⟩ := List.mem_mapIdx.mp h
    have hmem : envelope.to[i] ∈ envelopeTo str rcptTo := hto ▸ List.getElem_mem hi
    obtain ⟨address, -, haddress⟩ := List.mem_map.mp hmem
    exact ⟨address, haddress.symm, rfl⟩

/-- When the lookup finds the entry of a recipient that is on the list. -/
theorem matches_iff {address domain : String} {entry : Suppressed}
    (hentry : newEntry str address domain = some entry) {document : Recipient} {rcpt : String}
    (hrecipient : document.recipient = normalizeAddress str rcpt)
    (hdomain : document.domain = MailQueue.recipientDomain document.recipient)
    (hlisted : Listed str entry domain document.recipient) {delivery : Shifted}
    (hfor : IsFor document delivery) :
    entry.matches str.normal delivery = true ↔
      entry.address = some (str.toLowerCase document.recipient) ∨
        Unbracketed document.recipient := by
  obtain ⟨part, hpart⟩ := domain_afterLast laws rcpt
  rw [← hrecipient] at hpart
  have haddress : str.normal document.recipient = str.toLowerCase document.recipient := by
    rw [hrecipient, normal_normalizeAddress laws]
  rw [Suppressed.matches, Bool.or_eq_true, beq_iff_eq, beq_iff_eq, hfor.recipient, hfor.domain,
    haddress, hdomain]
  apply or_congr_right'
  intro hmiss
  -- it is on the list by its domain
  obtain ⟨hgiven, hsame⟩ := hlisted.resolve_left hmiss
  have hentryDomain : entry.domain = some (afterLast '@' document.recipient) := by
    rw [newEntry_domain hentry, if_pos hgiven, normalizeDomain_lower_trim, ← hsame, hpart,
      normalizeDomain_normalizeDomain laws]
  rw [hentryDomain, Option.some.injEq]
  constructor
  · intro heq
    -- the entry has the brackets of its domain, and what is looked up has none
    by_contra hbracket
    exact normal_recipientDomain_ne laws hbracket heq.symm
  · intro hplain
    rw [recipientDomain_of_unbracketed hplain, hpart, ForStd.Text.normal,
      lower_normalizeDomain laws, trim_normalizeDomain laws]

/-- `shift` hands out no delivery for a recipient that is on the suppression list if and only if it
    is there by its address, or its domain is no address literal. -/
theorem withheld_iff {address domain : String} {entry : Suppressed}
    (hentry : newEntry str address domain = some entry) {zones : SendingZones}
    {optionsDefaultZone : String} {date : Nat → Nat} {_id : Nat → ObjectId} {envelope : Envelope}
    {documents : List Recipient} {rcptTo : List String} (hto : envelope.to = envelopeTo str rcptTo)
    (hpush : MailQueue.push str zones optionsDefaultZone date _id envelope = .ok documents)
    {document : Recipient} (hdocument : document ∈ documents)
    (hlisted : Listed str entry domain document.recipient) :
    Withheld str entry document ↔
      entry.address = some (str.toLowerCase document.recipient) ∨
        Unbracketed document.recipient := by
  obtain ⟨rcpt, hrecipient, hdomain⟩ := document_of_push hto hpush hdocument
  have hmatches := fun delivery (hfor : IsFor document delivery) =>
    matches_iff laws hentry hrecipient hdomain hlisted hfor
  rw [withheld_iff_matches]
  constructor
  · intro h
    let delivery : Shifted := ⟨"", "", document.domain, document.recipient, ""⟩
    exact (hmatches delivery ⟨rfl, rfl⟩).mp (h delivery ⟨rfl, rfl⟩)
  · intro h delivery hfor
    exact (hmatches delivery hfor).mpr h

omit laws

/-- ASCII text satisfies the laws. -/
theorem laws_asciiStrings : MailQueue.asciiStrings.Laws where
  toASCII_toASCII _ := rfl
  toASCII_of_ascii _ _ := rfl
  toASCII_lower _ h := h
  toASCII_trim _ h := h
  toASCII_at _ h := h
  trim_at u d hu hd := by
    have htoList {s : String} (h : MailQueue.asciiStrings.trim s = s) :
        ForStd.Text.trimList s.toList = s.toList := by
      rw [← String.toList_ofList (l := ForStd.Text.trimList s.toList)]
      exact congrArg String.toList h
    have hlist : (u ++ "@" ++ d).toList = u.toList ++ '@' :: d.toList := by simp
    show String.ofList (ForStd.Text.trimList (u ++ "@" ++ d).toList) = u ++ "@" ++ d
    rw [hlist, ForStd.Text.trimList_append_cons (by decide) (htoList hu) (htoList hd), ← hlist,
      String.ofList_toList]
  mem_trim s c hc := by
    have hc' : c ∈ (String.ofList (ForStd.Text.trimList s.toList)).toList := hc
    rw [String.toList_ofList] at hc'
    exact ForStd.Text.mem_trimList hc'
  mem_lower s c hc hmem := by
    have hc' : c ∈ (String.ofList (s.toList.map Char.toLower)).toList := hc
    rw [String.toList_ofList] at hc'
    obtain ⟨d, hd, hlower⟩ := List.mem_map.mp hc'
    have hletter : ¬(97 ≤ c.val.toNat ∧ c.val.toNat ≤ 122) := by
      simp only [List.mem_cons, List.not_mem_nil, or_false] at hmem
      rcases hmem with rfl | rfl | rfl <;> decide
    exact ForStd.Text.eq_of_toLower_eq hlower hletter ▸ hd
  lower_empty := rfl

/-- An envelope with one recipient. -/
def envelopeFor (rcpt : String) : Envelope :=
  { MailQueue.oneTo "default" with «to» := envelopeTo MailQueue.asciiStrings [rcpt] }

/-- Its document. -/
def documentFor (rcpt : String) : Recipient where
  _id := ⟨0, 1⟩
  index := 1
  recipient := normalizeAddress MailQueue.asciiStrings rcpt
  domain := MailQueue.recipientDomain (normalizeAddress MailQueue.asciiStrings rcpt)
  sendingZone := MailQueue.deliveryZone MailQueue.asciiStrings {} "" (envelopeFor rcpt)
    (normalizeAddress MailQueue.asciiStrings rcpt)
  queued := 0
  created := 0

theorem push_envelopeFor (rcpt : String) :
    MailQueue.push MailQueue.asciiStrings {} "" (fun _ => 0) (fun i => ⟨0, i⟩) (envelopeFor rcpt) =
      .ok [documentFor rcpt] := by
  simp [MailQueue.push, envelopeFor, envelopeTo, documentFor, MailQueue.oneTo]

theorem withheld_domain :
    Withheld MailQueue.asciiStrings ⟨none, some "b"⟩ (documentFor "U@b ") := by
  have hentry : newEntry MailQueue.asciiStrings "" " B" =
      some ⟨none, some "b"⟩ := by decide +kernel
  have hrecipient : (documentFor "U@b ").recipient = "U@b" := by decide +kernel
  have hgiven : MailQueue.asciiStrings.toLowerCase (MailQueue.asciiStrings.trim " B") = "b" := by
    decide +kernel
  have hsame : normalizeDomain MailQueue.asciiStrings (afterLast '@' "U@b") = "b" := by
    decide +kernel
  have hdomain : normalizeDomain MailQueue.asciiStrings " B" = "b" := by decide +kernel
  have hlisted : Listed MailQueue.asciiStrings ⟨none, some "b"⟩ " B"
      (documentFor "U@b ").recipient := by
    rw [hrecipient]
    refine Or.inr ⟨?_, hsame.trans hdomain.symm⟩
    rw [hgiven]
    simp
  have hplain : Unbracketed (documentFor "U@b ").recipient := by
    have hpart : (afterLast '@' "U@b").toList = ['b'] := by decide +kernel
    rw [hrecipient, Unbracketed, hpart]
    simp
  have hto : (envelopeFor "U@b ").to =
      envelopeTo MailQueue.asciiStrings ["U@b "] := rfl
  exact (withheld_iff laws_asciiStrings hentry hto (push_envelopeFor _) List.mem_cons_self
    hlisted).mpr (Or.inr hplain)

/-- A domain entry for an address literal has the brackets that `push` takes away. -/
theorem not_withheld_literal :
    newEntry MailQueue.asciiStrings "" "[127.0.0.1]" = some ⟨none, some "[127.0.0.1]"⟩ ∧
      MailQueue.push MailQueue.asciiStrings {} "" (fun _ => 0) (fun i => ⟨0, i⟩)
        (envelopeFor "user@[127.0.0.1]") = .ok [documentFor "user@[127.0.0.1]"] ∧
      Listed MailQueue.asciiStrings ⟨none, some "[127.0.0.1]"⟩ "[127.0.0.1]"
        (documentFor "user@[127.0.0.1]").recipient ∧
      ¬Withheld MailQueue.asciiStrings ⟨none, some "[127.0.0.1]"⟩
        (documentFor "user@[127.0.0.1]") := by
  have hrecipient : (documentFor "user@[127.0.0.1]").recipient = "user@[127.0.0.1]" := by
    decide +kernel
  have hdomain : (documentFor "user@[127.0.0.1]").domain = "127.0.0.1" := by decide +kernel
  have hgiven : MailQueue.asciiStrings.toLowerCase (MailQueue.asciiStrings.trim "[127.0.0.1]") =
      "[127.0.0.1]" := by
    decide +kernel
  have hsame : normalizeDomain MailQueue.asciiStrings (afterLast '@' "user@[127.0.0.1]") =
      "[127.0.0.1]" := by decide +kernel
  have hentered : normalizeDomain MailQueue.asciiStrings "[127.0.0.1]" = "[127.0.0.1]" := by
    decide +kernel
  refine ⟨by decide +kernel, push_envelopeFor _, ?_, fun h => ?_⟩
  · rw [hrecipient]
    refine Or.inr ⟨?_, hsame.trans hentered.symm⟩
    rw [hgiven]
    simp
  · let delivery : Shifted := ⟨"m", "001", "127.0.0.1", "user@[127.0.0.1]", "lock m 001"⟩
    have hfound := withheld_iff_matches.mp h delivery ⟨hrecipient.symm, hdomain.symm⟩
    revert hfound
    decide +kernel

end Suppression

/-! ## shift while no one else calls the database -/

/-- What `shift` returns, as an answer. -/
def Suppression.answer : Option Shifted → Suppression.Answer
  | none => .none
  | some delivery => .delivery delivery

namespace MailQueue

open Suppression (Replies answer)

variable {cfg : Config} {parse : String → Metadata} {query : Query} {lockOwner : String}
  {q q' : MailQueue}

/-- What the calls of a try reply. -/
theorem replies_of_tryNext {round : Round} {r : Option (Option Shifted)}
    (h : tryNext cfg parse query lockOwner round q = (r, q')) :
    ∃ reply : Replies, reply.suppressionlist = some q.db.suppressionlist ∧
      Suppression.tryNext cfg.text.normal reply = r.map answer := by
  have hlist (delivery : Shifted) : q.db.suppressionlist.any (·.matches cfg.text.normal delivery) =
      delivery.suppressed cfg.text q.db := by
    have hreply := Shifted.findSuppressed cfg.text delivery q.db
    simp only [Database.exec, Reply.suppressed.injEq] at hreply
    exact hreply
  rcases tryNext_cases h with ⟨-, rfl⟩ | ⟨e, -, htried⟩
  · exact ⟨⟨some none, true, none, some q.db.suppressionlist, true⟩, rfl, rfl⟩
  · cases htried with
    | locked => exact ⟨⟨some (some e), false, none, some q.db.suppressionlist, true⟩, rfl, rfl⟩
    | missing =>
      exact ⟨⟨some (some e), true, some none, some q.db.suppressionlist, true⟩, rfl, rfl⟩
    | @suppressed _ file _ _ hsuppressed =>
      refine ⟨⟨some (some e), true, some (some (file.metadata parse)),
        some q.db.suppressionlist, true⟩, rfl, ?_⟩
      simp [Suppression.tryNext, hlist, hsuppressed]
    | @returned _ file _ _ hallowed =>
      refine ⟨⟨some (some e), true, some (some (file.metadata parse)),
        some q.db.suppressionlist, true⟩, rfl, ?_⟩
      simp [Suppression.tryNext, hlist, hallowed, answer]

theorem replies_of_retry {q₀ : MailQueue} {rounds : List Round} {result : Option Shifted}
    (hq : Before query q₀ q)
    (h : ForStd.retry (tryNext cfg parse query lockOwner) rounds q = some (result, q')) :
    ∃ replies : List Replies,
      (∀ reply ∈ replies, reply.suppressionlist = some q₀.db.suppressionlist) ∧
        Suppression.shift cfg.text.normal replies = some (answer result) := by
  induction rounds generalizing q with
  | nil => exact nomatch h
  | cons round rounds ih =>
    rw [ForStd.retry] at h
    split at h
    · next r q₁ htry =>
      obtain ⟨rfl, rfl⟩ := Prod.mk.inj (Option.some.inj h)
      obtain ⟨reply, hlist, hreply⟩ := replies_of_tryNext htry
      refine ⟨[reply], ?_, by rw [Suppression.shift, List.findSome?_cons, hreply]; rfl⟩
      intro reply' hreply'
      rw [List.mem_singleton.mp hreply', hlist, hq.2.suppressionlist]
    · next q₁ htry =>
      obtain ⟨reply, hlist, hreply⟩ := replies_of_tryNext htry
      obtain ⟨-, -, -, hq₁⟩ := hq.tryNext htry
      obtain ⟨replies, hreplies, hshift⟩ := ih hq₁ h
      refine ⟨reply :: replies, ?_, ?_⟩
      · intro reply' hreply'
        rcases List.mem_cons.mp hreply' with rfl | hreply'
        · rw [hlist, hq.2.suppressionlist]
        · exact hreplies reply' hreply'
      · rw [Suppression.shift, List.findSome?_cons, hreply]
        exact hshift

/-- `shift` is the one of `Suppression` with the replies that it gets. -/
theorem replies_of_shift (hids : (q.db.queue.map (·._id)).Nodup) {defaultZone zone : String}
    {now : Nat} {rounds : List Round} {result : Option Shifted}
    (hlate : q.returnsEarly defaultZone zone now = false)
    (h : q.shift cfg parse defaultZone zone lockOwner now rounds = some (result, q')) :
    ∃ replies : List Replies,
      (∀ reply ∈ replies, reply.suppressionlist = some q.db.suppressionlist) ∧
        Suppression.shift cfg.text.normal replies = some (answer result) := by
  rw [shift, hlate, if_neg Bool.false_ne_true] at h
  have hstart : Before (q.shiftQuery cfg defaultZone zone now) q { q with
      locks := (q.locks.listSkipDomains (requestedZone defaultZone zone)).2 } :=
    ⟨hids, shrinks_of_db_eq rfl⟩
  exact replies_of_retry hstart h

end MailQueue

end ZoneMta
