import ZoneMta.ForStd.Infix
import ZoneMta.Native.GoDelivery

/-!
# Permanent and temporary errors

`isPermanentError` looks for its patterns in the text of an error, which has the reply of the
server, but also the names of the hosts and what the network or the name service says. Behind the
constant parts of the text, which never matter, every part decides on its own.

## Key results

- `isPermanentError_error`: the parts of an error that decide
- `classified_iff`: which errors are classified by what they are
-/

namespace ZoneMta

namespace GoDelivery

open GoQueue (permanentPatterns isPermanentError)

/-! ## Errors -/

/-- What `isPermanentError` says is right: the replies from 500 on are permanent, those from 400
    on are not, and no failure of the name service or of a connection is. -/
def Classified (err : DeliveryError) : Prop :=
  match err with
  | .allFailed (.call _ (.reply code _)) =>
    (500 ≤ code.val ∧ code.val < 600 → isPermanentError err.error = true) ∧
      (400 ≤ code.val ∧ code.val < 500 → isPermanentError err.error = false)
  | .lookup .. | .noRecords _ | .allFailed (.connect ..) | .allFailed (.call _ (.other _)) =>
    isPermanentError err.error = false
  | .invalidRecipient _ => True

/-- One of the patterns occurs in the text, in any case. -/
def Mentions (s : String) : Prop :=
  ForStd.Mentions (permanentPatterns.map String.toList) (s.toList.map GoQueue.toLower)

instance (s : String) : Decidable (Mentions s) := inferInstanceAs (Decidable (ForStd.Mentions _ _))

/-- The text of a permanent reply has a pattern, or its code is one of them; the text of a temporary
    reply has none, and neither have the names of the hosts and the texts of the other errors. -/
def Telling (err : DeliveryError) : Prop :=
  match err with
  | .allFailed (.call _ (.reply code msg)) =>
    (500 ≤ code.val ∧ code.val < 600 → 550 ≤ code.val ∧ code.val ≤ 554 ∨ Mentions msg) ∧
      (400 ≤ code.val ∧ code.val < 500 → ¬Mentions msg)
  | .allFailed (.call _ (.other text)) => ¬Mentions text
  | .allFailed (.connect mxHost text) => ¬Mentions mxHost ∧ ¬Mentions text
  | .lookup domain text => ¬Mentions domain ∧ ¬Mentions text
  | .noRecords domain => ¬Mentions domain
  | .invalidRecipient _ => True

/-! ## Parts of a text -/

theorem isPermanentError_iff (s : String) : isPermanentError s = true ↔ Mentions s := by
  rw [isPermanentError, List.any_eq_true, Mentions, ForStd.Mentions]
  constructor
  · rintro ⟨pattern, hpattern, hmid⟩
    exact ⟨_, List.mem_map_of_mem hpattern, of_decide_eq_true hmid⟩
  · rintro ⟨w, hw, hmid⟩
    obtain ⟨pattern, hpattern, rfl⟩ := List.mem_map.mp hw
    exact ⟨pattern, hpattern, decide_eq_true hmid⟩

/-- A constant in front of a text. -/
theorem mentions_constant {constant : String}
    (h : ForStd.Apart (permanentPatterns.map String.toList)
      (constant.toList.map GoQueue.toLower)) (s : String) :
    Mentions (constant ++ s) ↔ Mentions s := by
  rw [Mentions, String.toList_append, List.map_append]
  exact ForStd.mentions_append_of_apart h

/-- No pattern has a colon or begins with a space. -/
theorem mentions_colon (s t : String) : Mentions (s ++ ": " ++ t) ↔ Mentions s ∨ Mentions t := by
  have hlist : (s ++ ": " ++ t).toList.map GoQueue.toLower =
      s.toList.map GoQueue.toLower ++ ':' :: ' ' :: t.toList.map GoQueue.toLower := by
    simp [GoQueue.toLower]
  rw [Mentions, hlist, ForStd.mentions_append_cons, ForStd.mentions_cons]
  · rfl
  · decide
  · decide

theorem toLower_of_isDigit {c : Char} (h : c.isDigit = true) : GoQueue.toLower c = c := by
  rw [Char.isDigit, Bool.and_eq_true, decide_eq_true_eq, decide_eq_true_eq] at h
  have hle : c.val.toNat ≤ 57 := UInt32.le_iff_toNat_le.mp h.2
  have hne (n : UInt32) (hn : 57 < n.toNat) : c.val ≠ n := by
    rintro rfl
    omega
  rw [GoQueue.toLower, if_neg (hne _ (by decide)), if_neg (hne _ (by decide)), Char.toLower]
  apply dif_neg
  rintro ⟨hupper, -⟩
  have hge : 65 ≤ c.val.toNat := UInt32.le_iff_toNat_le.mp hupper
  omega

/-- A code has no letters. -/
theorem lower_code (code : Code) :
    (toString code.val).toList.map GoQueue.toLower = Nat.toDigits 10 code.val := by
  rw [Nat.toString_eq_ofList_toDigits, String.toList_ofList]
  apply (List.map_congr_left _).trans (List.map_id _)
  intro c hc
  exact toLower_of_isDigit (Nat.isDigit_of_mem_toDigits (by decide) (by decide) hc)

/-- The codes that are patterns. -/
theorem mentions_code (code : Code) :
    Mentions (toString code.val) ↔ 550 ≤ code.val ∧ code.val ≤ 554 := by
  have hlength : (Nat.toDigits 10 code.val).length ≤ 3 :=
    (Nat.length_toDigits_le_iff (by decide) (by decide)).mpr code.2.2
  have hcodes : ∀ w ∈ permanentPatterns.map String.toList, w.length ≤ 3 →
      w.length = 3 ∧ 550 ≤ Nat.ofDigitChars 10 w 0 ∧ Nat.ofDigitChars 10 w 0 ≤ 554 := by decide
  rw [Mentions, lower_code]
  constructor
  · rintro ⟨w, hw, hmid⟩
    have hle := hmid.length_le
    obtain ⟨hthree, hcode⟩ := hcodes w hw (by omega)
    rw [hmid.eq_of_length (by omega), Nat.ofDigitChars_ten_toDigits] at hcode
    exact hcode
  · rintro ⟨hge, hle⟩
    refine ⟨_, ?_, List.infix_refl _⟩
    obtain hn | hn | hn | hn | hn : code.val = 550 ∨ code.val = 551 ∨ code.val = 552 ∨
      code.val = 553 ∨ code.val = 554 := by omega
    all_goals rw [hn]; decide

/-- No pattern with a space begins with a digit. -/
theorem mentions_reply (code : Code) (msg : String) :
    Mentions (toString code.val ++ " " ++ msg) ↔ Mentions (toString code.val) ∨ Mentions msg := by
  have hlist : (toString code.val ++ " " ++ msg).toList.map GoQueue.toLower =
      (toString code.val).toList.map GoQueue.toLower ++ ' ' :: msg.toList.map GoQueue.toLower := by
    simp [GoQueue.toLower]
  have hpatterns : ∀ w ∈ permanentPatterns.map String.toList, ' ' ∈ w →
      w.head?.any Char.isDigit = false := by decide
  rw [Mentions, hlist, ForStd.mentions_append, ForStd.mentions_cons]
  · rfl
  · decide
  · intro w hw l r heq hl hr hsuffix hstart
    obtain ⟨a, l', rfl⟩ := List.exists_cons_of_ne_nil hl
    obtain ⟨b, r', rfl⟩ := List.exists_cons_of_ne_nil hr
    obtain rfl := (List.cons_prefix_cons.mp hstart).1
    have hdigit : a.isDigit = false := by
      have hhead := hpatterns w hw (by rw [heq]; simp)
      rw [heq] at hhead
      exact hhead
    have ha : a ∈ Nat.toDigits 10 code.val :=
      lower_code code ▸ hsuffix.subset List.mem_cons_self
    rw [Nat.isDigit_of_mem_toDigits (by decide) (by decide) ha] at hdigit
    exact nomatch hdigit

/-! ## Texts of errors -/

theorem mentions_call (name : Call) (s : String) : Mentions (name.text ++ s) ↔ Mentions s := by
  cases name <;> exact mentions_constant (by decide +kernel) s

theorem mentions_smtpError (err : SmtpError) :
    Mentions err.error ↔
      match err with
      | .reply code msg => 550 ≤ code.val ∧ code.val ≤ 554 ∨ Mentions msg
      | .other text => Mentions text := by
  cases err with
  | reply code msg => exact (mentions_reply code msg).trans (or_congr_left (mentions_code code))
  | other text => exact Iff.rfl

theorem mentions_mxError (err : MxError) :
    Mentions err.error ↔
      match err with
      | .connect mxHost text => Mentions mxHost ∨ Mentions text
      | .call _ err => Mentions err.error := by
  cases err with
  | connect mxHost text =>
    show Mentions ("failed to connect to " ++ mxHost ++ ": " ++ text) ↔ _
    rw [mentions_colon, mentions_constant (by decide +kernel)]
  | call name err => exact mentions_call name err.error

/-- The parts of an error that decide. -/
theorem isPermanentError_error (err : DeliveryError) :
    isPermanentError err.error = true ↔
      match err with
      | .invalidRecipient _ => True
      | .lookup domain text => Mentions domain ∨ Mentions text
      | .noRecords domain => Mentions domain
      | .allFailed lastErr => Mentions lastErr.error := by
  rw [isPermanentError_iff]
  cases err with
  | invalidRecipient recipient =>
    apply iff_of_true _ trivial
    refine ⟨"invalid recipient".toList, by decide, ?_⟩
    show _ <:+: ("invalid recipient address: " ++ recipient).toList.map GoQueue.toLower
    rw [String.toList_append, List.map_append]
    exact List.infix_append_of_infix_left (by decide +kernel)
  | lookup domain text =>
    show Mentions ("MX lookup failed for " ++ domain ++ ": " ++ text) ↔ _
    rw [mentions_colon, mentions_constant (by decide +kernel)]
  | noRecords domain => exact mentions_constant (by decide +kernel) domain
  | allFailed lastErr => exact mentions_constant (by decide +kernel) lastErr.error

/-! ## Classification -/

theorem isPermanentError_eq_false {s : String} {p : Prop} (h : isPermanentError s = true ↔ p) :
    isPermanentError s = false ↔ ¬p := by
  rw [← h, Bool.not_eq_true]

/-- An error is classified by what it is if and only if its parts are telling. -/
theorem classified_iff_telling (err : DeliveryError) : Classified err ↔ Telling err := by
  have herror := isPermanentError_error err
  cases err with
  | invalidRecipient recipient => exact Iff.rfl
  | lookup domain text => exact (isPermanentError_eq_false herror).trans not_or
  | noRecords domain => exact isPermanentError_eq_false herror
  | allFailed lastErr =>
    have hlast := herror.trans (mentions_mxError lastErr)
    cases lastErr with
    | connect mxHost text => exact (isPermanentError_eq_false hlast).trans not_or
    | call name err =>
      have hcall := hlast.trans (mentions_smtpError err)
      cases err with
      | other text => exact isPermanentError_eq_false hcall
      | reply code msg =>
        apply and_congr
        · exact imp_congr_right fun _ => hcall
        · apply imp_congr_right
          intro htemporary
          -- the code of a temporary reply is no pattern
          rw [isPermanentError_eq_false hcall, not_or, and_iff_right]
          omega

/-- The error of a delivery is classified by what it is if and only if its parts are telling. -/
theorem classified_iff (lookupMX : String → Except String (List Mx)) (recipient : String) :
    (∀ err ∈ deliverToRecipient lookupMX recipient, Classified err) ↔
      ∀ err ∈ deliverToRecipient lookupMX recipient, Telling err :=
  forall₂_congr fun err _ => classified_iff_telling err

/-- A server that defers a message for 550 seconds. -/
def greylisting : Mx where
  host := "mx.example.com"
  rcpt := some (.reply ⟨451, by decide⟩ "4.7.1 Greylisted for 550 seconds")

/-- A temporary reply is taken for a permanent one. -/
theorem not_classified :
    ¬∀ (lookupMX : String → Except String (List Mx)) (recipient : String),
      ∀ err ∈ deliverToRecipient lookupMX recipient, Classified err := by
  intro h
  have hclassified := h (fun _ => .ok [greylisting]) "user@example.com" _ rfl
  exact absurd (hclassified.2 (by decide)) (by decide +kernel)

end GoDelivery

end ZoneMta
