import ZoneMta.ForStd.List
import ZoneMta.ForStd.Transition
import ZoneMta.Native.ConnectionPool

/-!
# The connections of the pool

A delivery that is sent over a connection of the pool has the key of the delivery for which the
connection was opened. The key has the port, one of the local addresses, and the host of the zone
or the domain. It does not have the exchanges and the credentials of the delivery, LMTP, TLS and
the other local address, so two deliveries with the same key can differ in them.

## Key results

- `options_eq_iff`: when two deliveries with the same key would get the same connection
- `inv_step`: the connections under a key were opened for deliveries with this key
- `reuse_iff`: the runs in which every connection of the pool is like a new one
- `reuse_credentials`: a delivery that is sent with the login of another one
-/

namespace ZoneMta

open ForStd (run Along)

namespace ConnectionPool

/-! ## Keys -/

variable {zone : Zone} {d d' : Delivery}

/-- The key is made by `getConnection`, and its host has no colon. -/
def Keyed (zone : Zone) (delivery : Delivery) : Prop :=
  delivery.connectionKey = "" ∧ ':' ∉ (keyHost zone delivery).toList

/-- The kinds of local addresses. -/
inductive Family where
  | any
  | ipv4
  | ipv6
deriving Repr, DecidableEq

/-- Which of the local addresses is in the key, and the other ones. -/
def otherAddresses (zone : Zone) (delivery : Delivery) :
    Family × Option String × Option String :=
  if zone.preferIPv6 && delivery.zoneAddressIPv6.isSome then
    (.ipv6, delivery.zoneAddressIPv4, delivery.zoneAddress)
  else if delivery.zoneAddress.isSome then
    (.any, delivery.zoneAddressIPv4, delivery.zoneAddressIPv6)
  else (.ipv4, delivery.zoneAddressIPv6, none)

/-- The deliveries agree on what is not in the key: the exchanges, the other local addresses,
    policies, LMTP, TLS and the credentials; and on what is in it, if the key does not say so. -/
def Agree (zone : Zone) (d d' : Delivery) : Prop :=
  mxOverride zone d = mxOverride zone d' ∧ otherAddresses zone d = otherAddresses zone d' ∧
    (options zone d).mtaSts = (options zone d').mtaSts ∧ d.useLMTP = d'.useLMTP ∧
    (options zone d).secure = (options zone d').secure ∧
    (options zone d).auth = (options zone d').auth ∧
    (Keyed zone d ∧ Keyed zone d' ∨ mxPort zone d = mxPort zone d' ∧
      zoneAddress zone d = zoneAddress zone d' ∧
      (options zone d).target = (options zone d').target)

instance (zone : Zone) (delivery : Delivery) : Decidable (Keyed zone delivery) :=
  inferInstanceAs (Decidable (_ ∧ _))

instance (zone : Zone) (d d' : Delivery) : Decidable (Agree zone d d') :=
  inferInstanceAs (Decidable (_ ∧ _))

/-- The port is written in digits. -/
theorem colon_notMem_toString (n : Nat) : ':' ∉ (toString n).toList := by
  intro h
  rw [Nat.toString_eq_repr, Nat.toList_repr] at h
  exact absurd (Nat.isDigit_of_mem_toDigits (by decide) (by decide) h) (by decide)

theorem toList_toString_inj {n m : Nat} (h : (toString n).toList = (toString m).toList) :
    n = m := by
  rw [Nat.toString_eq_repr, Nat.toString_eq_repr, Nat.toList_repr, Nat.toList_repr] at h
  have hvalue := congrArg (Nat.ofDigitChars 10 · 0) h
  simpa using hvalue

/-- A key that is made has one way to read it. -/
theorem key_inj {key : String} (hd : Keyed zone d) (hd' : Keyed zone d')
    (hkey : connectionKey zone d = some key) (hkey' : connectionKey zone d' = some key) :
    zoneAddress zone d = zoneAddress zone d' ∧ keyHost zone d = keyHost zone d' ∧
      mxPort zone d = mxPort zone d' := by
  unfold connectionKey at hkey hkey'
  rw [if_neg (not_not_intro hd.1), Option.map_eq_some_iff] at hkey
  rw [if_neg (not_not_intro hd'.1), Option.map_eq_some_iff] at hkey'
  obtain ⟨address, haddress, rfl⟩ := hkey
  obtain ⟨address', haddress', heq⟩ := hkey'
  have hlist := congrArg String.toList heq
  simp only [String.toList_append, show (":" : String).toList = [':'] from rfl,
    List.append_assoc, List.singleton_append] at hlist
  -- the port is behind the last colon, and the host behind the one before
  rw [← List.append_assoc, ← List.append_assoc, ForStd.append_cons_inj_of_notMem
    (colon_notMem_toString _) (colon_notMem_toString _), ForStd.append_cons_inj_of_notMem hd'.2
    hd.2] at hlist
  obtain ⟨⟨haddr, hhost⟩, hport⟩ := hlist
  refine ⟨?_, (String.toList_inj.mp hhost).symm, (toList_toString_inj hport).symm⟩
  rw [haddress, haddress', String.toList_inj.mp haddr]

/-- The address of the key is one of three. -/
theorem zoneAddress_cases (zone : Zone) (d : Delivery) :
    zoneAddress zone d = d.zoneAddressIPv6 ∧
        otherAddresses zone d = (.ipv6, d.zoneAddressIPv4, d.zoneAddress) ∨
      zoneAddress zone d = d.zoneAddress ∧
        otherAddresses zone d = (.any, d.zoneAddressIPv4, d.zoneAddressIPv6) ∨
      zoneAddress zone d = d.zoneAddressIPv4 ∧ d.zoneAddress = none ∧
        otherAddresses zone d = (.ipv4, d.zoneAddressIPv6, none) := by
  unfold zoneAddress otherAddresses
  split
  · exact Or.inl ⟨rfl, rfl⟩
  · cases hany : d.zoneAddress with
    | some address => exact Or.inr (Or.inl ⟨rfl, rfl⟩)
    | none => exact Or.inr (Or.inr ⟨rfl, rfl, rfl⟩)

/-- The addresses of a delivery are the one of the key and the other ones. -/
theorem addresses_inj (haddress : zoneAddress zone d = zoneAddress zone d')
    (hother : otherAddresses zone d = otherAddresses zone d') :
    d.zoneAddress = d'.zoneAddress ∧ d.zoneAddressIPv4 = d'.zoneAddressIPv4 ∧
      d.zoneAddressIPv6 = d'.zoneAddressIPv6 := by
  rcases zoneAddress_cases zone d with ⟨h, ho⟩ | ⟨h, ho⟩ | ⟨h, hnone, ho⟩ <;>
    rcases zoneAddress_cases zone d' with ⟨h', ho'⟩ | ⟨h', ho'⟩ | ⟨h', hnone', ho'⟩ <;>
    simp_all

theorem otherAddresses_congr (h : d.zoneAddress = d'.zoneAddress)
    (h4 : d.zoneAddressIPv4 = d'.zoneAddressIPv4) (h6 : d.zoneAddressIPv6 = d'.zoneAddressIPv6) :
    otherAddresses zone d = otherAddresses zone d' := by
  unfold otherAddresses
  rw [h, h4, h6]

/-- The connections for two deliveries with the same key are the same if and only if the
    deliveries agree. -/
theorem options_eq_iff {key : String} (hkey : connectionKey zone d = some key)
    (hkey' : connectionKey zone d' = some key) :
    options zone d = options zone d' ↔ Agree zone d d' := by
  constructor
  · intro h
    have htarget := congrArg (·.target) h
    have hport := congrArg (·.port) h
    have haddr := congrArg (·.localAddress) h
    have haddr4 := congrArg (·.localAddressIPv4) h
    have haddr6 := congrArg (·.localAddressIPv6) h
    simp only [options] at hport haddr haddr4 haddr6
    refine ⟨?_, otherAddresses_congr haddr haddr4 haddr6, congrArg (·.mtaSts) h,
      congrArg (·.lmtp) h, congrArg (·.secure) h, congrArg (·.auth) h, Or.inr ⟨hport, ?_, htarget⟩⟩
    · simp only [options] at htarget
      cases hmx : mxOverride zone d <;> cases hmx' : mxOverride zone d' <;> simp_all
    · unfold zoneAddress
      rw [haddr, haddr4, haddr6]
  · rintro ⟨hmx, hother, hsts, hlmtp, hsecure, hauth, hrest⟩
    have hkeyed : mxPort zone d = mxPort zone d' ∧ zoneAddress zone d = zoneAddress zone d' ∧
        (options zone d).target = (options zone d').target := by
      rcases hrest with ⟨hd, hd'⟩ | hrest
      · obtain ⟨haddress, hhost, hport⟩ := key_inj hd hd' hkey hkey'
        refine ⟨hport, haddress, ?_⟩
        show (mxOverride zone d).elim (Target.domain d.domain) Target.mx =
          (mxOverride zone d').elim (Target.domain d'.domain) Target.mx
        rw [hmx]
        cases hmx' : mxOverride zone d' with
        | some exchanges => rfl
        | none =>
          -- without exchanges the host of the key is the domain
          have hzone : zone.host = "" := by
            unfold mxOverride at hmx'
            split at hmx'
            · exact nomatch hmx'
            · by_contra hhost
              rw [if_neg hhost] at hmx'
              exact nomatch hmx'
          unfold keyHost at hhost
          rw [if_pos hzone, if_pos hzone] at hhost
          exact congrArg Target.domain hhost
      · exact hrest
    obtain ⟨hport, haddress, htarget⟩ := hkeyed
    obtain ⟨haddr, haddr4, haddr6⟩ := addresses_inj haddress hother
    unfold options at hsts hsecure hauth htarget ⊢
    dsimp only at hsts hsecure hauth htarget
    rw [htarget, hport, haddr, haddr4, haddr6, hsts, hlmtp, hsecure, hauth]

/-! ## The invariant -/

/-- The connection of a sender. -/
def Phase.connection? : Phase → Option Nat
  | .resolving _ => none
  | .connecting id _ => some id
  | .sending id => some id

namespace Senders

variable {s s' : Senders} {key : String} {id n : Nat}

/-- The connection was opened for a delivery with this key. -/
def HasKey (zone : Zone) (s : Senders) (id : Nat) (key : Option String) : Prop :=
  ∃ connection, s.connections.lookup id = some connection ∧
    connectionKey zone connection.openedFor = key

/-- The connections have the options of the deliveries that they were opened for, and are
    encrypted where a policy says so; the pool and the senders have connections with their
    keys. -/
structure Inv (zone : Zone) (s : Senders) : Prop where
  opened : ∀ id connection, s.connections.lookup id = some connection →
    connection.options = options zone connection.openedFor ∧
      (connection.connected = true → connection.enforceTLS = true → connection.secure = true)
  pooled : ∀ key ids id, s.pool.lookup key = some ids → id ∈ ids → s.HasKey zone id (some key)
  attempts : ∀ n attempt id, s.attempts.lookup n = some attempt →
    attempt.phase.connection? = some id →
    s.HasKey zone id (connectionKey zone attempt.delivery)

theorem inv_init (zone : Zone) : Inv zone {} where
  opened id _ h := nomatch (AList.lookup_empty id).symm.trans h
  pooled key _ _ h := nomatch (AList.lookup_empty key).symm.trans h
  attempts n _ _ h := nomatch (AList.lookup_empty n).symm.trans h

theorem inv_take (hs : Inv zone s) (key : String) : Inv zone (s.take key) := by
  unfold take
  split
  · refine ⟨hs.opened, fun key' ids id' hids hid => ?_, hs.attempts⟩
    rw [ForStd.lookup_erase] at hids
    split at hids
    · exact nomatch hids
    · exact hs.pooled key' ids id' hids hid
  · exact hs

theorem inv_wait (hs : Inv zone s) {delivery : Delivery} {phase : Phase}
    (hphase : ∀ id, phase.connection? = some id →
      s.HasKey zone id (connectionKey zone delivery)) :
    Inv zone (s.wait n delivery phase) := by
  refine ⟨hs.opened, hs.pooled, fun m attempt id' hattempt hid => ?_⟩
  rw [wait, ForStd.lookup_insert] at hattempt
  split at hattempt
  · obtain rfl := Option.some.inj hattempt
    exact hphase id' hid
  · exact hs.attempts m attempt id' hattempt hid

theorem inv_finish (hs : Inv zone s) (n : Nat) :
    Inv zone (s.finish n) := by
  refine ⟨hs.opened, hs.pooled, fun m attempt id' hattempt hid => ?_⟩
  rw [finish, ForStd.lookup_erase] at hattempt
  split at hattempt
  · exact nomatch hattempt
  · exact hs.attempts m attempt id' hattempt hid

/-- The connections of a list of the pool that may be missing. -/
theorem hasKey_of_mem (hs : Inv zone s) (h : id ∈ (s.pool.lookup key).getD []) :
    s.HasKey zone id (some key) := by
  cases hids : s.pool.lookup key with
  | none =>
    rw [hids] at h
    exact absurd h List.not_mem_nil
  | some ids =>
    rw [hids] at h
    exact hs.pooled key ids id hids h

theorem inv_add (hs : Inv zone s) (hid : s.HasKey zone id (some key)) :
    Inv zone (s.add key id) := by
  refine ⟨hs.opened, fun key' ids id' hids hmem => ?_, hs.attempts⟩
  rw [add, ForStd.lookup_insert] at hids
  split at hids
  · next heq =>
    subst heq
    obtain rfl := Option.some.inj hids
    rcases List.mem_append.mp hmem with hmem | hmem
    · have hold : s.HasKey zone id' (some key') := hasKey_of_mem hs hmem
      exact hold
    · rw [List.mem_singleton.mp hmem]
      exact hid
  · exact hs.pooled key' ids id' hids hmem

/-- A connection is new, or stays one for the same delivery. -/
theorem hasKey_insert {connection : Connection}
    (hsame : ∀ before, s.connections.lookup id = some before →
      before.openedFor = connection.openedFor) {id' : Nat} {key? : Option String}
    (h : s.HasKey zone id' key?) :
    (s.set id connection).HasKey zone id' key? := by
  obtain ⟨before, hbefore, hkey⟩ := h
  by_cases heq : id' = id
  · subst heq
    refine ⟨connection, (ForStd.lookup_insert ..).trans (if_pos rfl), ?_⟩
    rw [← hsame before hbefore]
    exact hkey
  · exact ⟨before, (ForStd.lookup_insert ..).trans ((if_neg heq).trans hbefore), hkey⟩

theorem inv_insert (hs : Inv zone s) {connection : Connection}
    (hopened : connection.options = options zone connection.openedFor)
    (hsecure : connection.connected = true → connection.enforceTLS = true →
      connection.secure = true)
    (hsame : ∀ before, s.connections.lookup id = some before →
      before.openedFor = connection.openedFor) :
    Inv zone (s.set id connection) := by
  refine ⟨fun id' connection' h => ?_, fun key ids id' hids hid => ?_,
    fun m attempt id' hattempt hid => ?_⟩
  · rw [set, ForStd.lookup_insert] at h
    split at h
    · obtain rfl := Option.some.inj h
      exact ⟨hopened, hsecure⟩
    · exact hs.opened id' connection' h
  · exact hasKey_insert hsame (hs.pooled key ids id' hids hid)
  · exact hasKey_insert hsame (hs.attempts m attempt id' hattempt hid)

/-- A connection changes its state, and stays one for its delivery. -/
theorem inv_update (hs : Inv zone s) {connection : Connection} (after : Connection)
    (hconnection : s.connections.lookup id = some connection)
    (hfor : after.openedFor = connection.openedFor) (hoptions : after.options = connection.options)
    (hsecure : after.connected = true → after.enforceTLS = true → after.secure = true) :
    Inv zone (s.set id after) ∧
      ∀ id' key?, s.HasKey zone id' key? → (s.set id after).HasKey zone id' key? := by
  have hsame : ∀ before, s.connections.lookup id = some before →
      before.openedFor = after.openedFor := by
    intro before hbefore
    rw [hconnection] at hbefore
    rw [hfor, Option.some.inj hbefore]
  refine ⟨inv_insert hs ?_ hsecure hsame, fun _ _ => hasKey_insert hsame⟩
  rw [hoptions, hfor]
  exact (hs.opened id connection hconnection).1

theorem inv_close (hs : Inv zone s) (id : Nat) : Inv zone (s.close id) := by
  unfold close
  split
  · next connection hconnection =>
    exact (inv_update hs { connection with connected := false } hconnection rfl rfl
      fun h => absurd h Bool.false_ne_true).1
  · exact hs

/-- The connection that the pool returns is open, and one for the key. -/
theorem pooled_eq_some {connection : Connection} (h : s.pooled key = some (id, connection)) :
    (∃ rest, s.pool.lookup key = some (id :: rest)) ∧
      s.connections.lookup id = some connection ∧ connection.connected = true := by
  unfold pooled at h
  cases hids : s.pool.lookup key with
  | none => simp [hids] at h
  | some ids =>
    cases ids with
    | nil => simp [hids] at h
    | cons id' rest =>
      cases hconnection : s.connections.lookup id' with
      | none => simp [hids, hconnection] at h
      | some connection' =>
        by_cases hopen : connection'.connected = true
        · simp only [hids, hconnection, Option.bind_eq_bind, Option.bind_some, List.head?_cons,
            if_pos hopen, Option.some.injEq, Prod.mk.injEq] at h
          obtain ⟨rfl, rfl⟩ := h
          exact ⟨⟨rest, rfl⟩, hconnection, hopen⟩
        · simp [hids, hconnection, hopen] at h

/-- What a try does: the sender goes on with a connection of the pool, or waits for a new one. -/
theorem tryConnect_cases {ignoreTLS : Bool} (h : s.tryConnect zone n d ignoreTLS = some s') :
    ∃ key, connectionKey zone d = some key ∧
      ((∃ id connection, s.pooled key = some (id, connection) ∧
          s' = (s.take key).wait n d (.sending id)) ∨
        s.pooled key = none ∧ s' = (s.take key).wait n d (.resolving ignoreTLS)) := by
  obtain ⟨key, hkey, h⟩ := Option.bind_eq_some_iff.mp h
  refine ⟨key, hkey, ?_⟩
  cases hpooled : s.pooled key with
  | none =>
    rw [hpooled] at h
    exact Or.inr ⟨rfl, (Option.some.inj h).symm⟩
  | some found =>
    obtain ⟨id, connection⟩ := found
    rw [hpooled] at h
    obtain ⟨-, -, rfl⟩ := Option.map_eq_some_iff.mp h
    exact Or.inl ⟨id, connection, rfl, rfl⟩

theorem take_connections (s : Senders) (key : String) :
    (s.take key).connections = s.connections := by
  unfold take
  split <;> rfl

theorem inv_tryConnect {ignoreTLS : Bool} (hs : Inv zone s)
    (h : s.tryConnect zone n d ignoreTLS = some s') : Inv zone s' := by
  obtain ⟨key, hkey, hcases⟩ := tryConnect_cases h
  rcases hcases with ⟨id, connection, hpooled, rfl⟩ | ⟨-, rfl⟩
  · refine inv_wait (inv_take hs key) fun id' hid => ?_
    obtain rfl := Option.some.inj hid
    obtain ⟨⟨rest, hids⟩, -, -⟩ := pooled_eq_some hpooled
    obtain ⟨before, hbefore, hbeforeKey⟩ := hs.pooled key _ id hids List.mem_cons_self
    exact ⟨before, (take_connections s key).symm ▸ hbefore, hbeforeKey.trans hkey.symm⟩
  · exact inv_wait (inv_take hs key) nofun

theorem inv_connect (hs : Inv zone s) (hid : s.connections.lookup id = none)
    (ignoreTLS enforced : Bool) : Inv zone (s.connect zone n id d ignoreTLS enforced) := by
  unfold connect
  refine inv_wait (inv_insert hs rfl (fun h => absurd h Bool.false_ne_true)
    fun before hbefore => ?_) fun id' hid' => ?_
  · exact nomatch hid.symm.trans hbefore
  · obtain rfl := Option.some.inj hid'
    exact ⟨_, (ForStd.lookup_insert ..).trans (if_pos rfl), rfl⟩

theorem inv_connected (hs : Inv zone s) {connection : Connection}
    (hconnection : s.connections.lookup id = some connection)
    (hkey : s.HasKey zone id (connectionKey zone d)) (secure : Bool) :
    Inv zone (s.connected n id d connection secure) := by
  unfold connected
  split
  · exact inv_finish hs n
  · next hpolicy =>
    -- a policy would have closed a connection without TLS
    have hsecure : connection.enforceTLS = true → secure = true := by
      intro henforce
      by_contra hplain
      refine hpolicy ?_
      rw [henforce, Bool.not_eq_true _ |>.mp hplain]
      rfl
    obtain ⟨hinv, hkeys⟩ := inv_update hs
      { connection with secure := secure, connected := true } hconnection rfl rfl fun _ => hsecure
    refine inv_wait hinv fun id' hid' => ?_
    obtain rfl := Option.some.inj hid'
    exact hkeys id _ hkey

theorem inv_sent (hs : Inv zone s) {connection : Connection}
    (hconnection : s.connections.lookup id = some connection)
    (hkey : s.HasKey zone id (connectionKey zone d)) {accepted : Bool}
    (h : s.sent zone n id d connection accepted = some s') : Inv zone s' := by
  obtain ⟨key, hsome, rfl⟩ := Option.map_eq_some_iff.mp h
  obtain ⟨hinv, hkeys⟩ := inv_update hs
    { connection with usageCount := connection.usageCount + 1 } hconnection rfl rfl
    (hs.opened id connection hconnection).2
  have hused := inv_finish hinv n
  dsimp only
  split
  · exact inv_add hused (hsome ▸ hkeys id _ hkey)
  · exact inv_close hused id

theorem inv_remove (hs : Inv zone s) (key : String) (id : Nat) : Inv zone (s.remove key id) := by
  refine ⟨hs.opened, fun key' ids id' hids hid => ?_, hs.attempts⟩
  dsimp only [remove] at hids
  split at hids
  · rw [ForStd.lookup_erase] at hids
    split at hids
    · exact nomatch hids
    · exact hs.pooled key' ids id' hids hid
  · rw [ForStd.lookup_insert] at hids
    split at hids
    · next heq =>
      subst heq
      obtain rfl := Option.some.inj hids
      have hold : s.HasKey zone id' (some key') := hasKey_of_mem hs (List.mem_of_mem_erase hid)
      exact hold
    · exact hs.pooled key' ids id' hids hid

/-- Every step keeps the invariant. -/
theorem inv_step {e : Event} (hs : Inv zone s) (h : s.step zone e = some s') : Inv zone s' := by
  cases e with
  | getConnection n delivery enforced =>
    simp only [step] at h
    split at h
    · exact inv_tryConnect hs h
    · exact nomatch h
  | connect n id enforced =>
    obtain ⟨⟨delivery, phase⟩, hattempt, h⟩ := Option.bind_eq_some_iff.mp h
    cases phase with
    | resolving ignoreTLS =>
      dsimp only at h
      split at h
      · next hid =>
        obtain rfl := Option.some.inj h
        exact inv_connect hs (Option.isNone_iff_eq_none.mp hid) ignoreTLS enforced
      · exact nomatch h
    | _ => exact nomatch h
  | connected n secure =>
    obtain ⟨⟨delivery, phase⟩, hattempt, h⟩ := Option.bind_eq_some_iff.mp h
    cases phase with
    | connecting id ignoreTLS =>
      obtain ⟨connection, hconnection, rfl⟩ := Option.map_eq_some_iff.mp h
      exact inv_connected hs hconnection (hs.attempts n _ id hattempt rfl) secure
    | _ => exact nomatch h
  | retry n noTLS enforced =>
    obtain ⟨⟨delivery, phase⟩, hattempt, h⟩ := Option.bind_eq_some_iff.mp h
    cases phase with
    | connecting id ignoreTLS =>
      obtain ⟨connection, hconnection, h⟩ := Option.bind_eq_some_iff.mp h
      split at h
      · exact nomatch h
      · exact inv_tryConnect hs h
    | _ => exact nomatch h
  | failed n =>
    obtain ⟨⟨delivery, phase⟩, hattempt, h⟩ := Option.bind_eq_some_iff.mp h
    cases phase with
    | sending id => exact nomatch h
    | _ =>
      obtain rfl := Option.some.inj h
      exact inv_finish hs n
  | sent n accepted =>
    obtain ⟨⟨delivery, phase⟩, hattempt, h⟩ := Option.bind_eq_some_iff.mp h
    cases phase with
    | sending id =>
      obtain ⟨connection, hconnection, h⟩ := Option.bind_eq_some_iff.mp h
      exact inv_sent hs hconnection (hs.attempts n _ id hattempt rfl) h
    | _ => exact nomatch h
  | closed id =>
    obtain rfl := Option.some.inj h
    exact inv_close hs id
  | expired key id =>
    simp only [step] at h
    split at h
    · obtain rfl := Option.some.inj h
      exact inv_close (inv_remove hs key id) id
    · exact nomatch h

/-! ## The runs -/

/-- The sender and the delivery of a try, and whether its domain has an enforced policy now. -/
def tries (s : Senders) : Event → Option (Nat × Delivery × Bool)
  | .getConnection n delivery enforced => some (n, delivery, enforced)
  | .retry n _ enforced => (s.attempts.lookup n).map fun attempt => (n, attempt.delivery, enforced)
  | _ => none

/-- If the sender goes on with a connection of the pool, it is like a new one: it has the same
    options, and it is encrypted if a new one would have to be. -/
def ReusesSame (zone : Zone) (s : Senders) (e : Event) : Prop :=
  ∀ n delivery enforced s' id connection, s.tries e = some (n, delivery, enforced) →
    s.step zone e = some s' → s'.attempts.lookup n = some ⟨delivery, .sending id⟩ →
    s'.connections.lookup id = some connection →
    connection.options = options zone delivery ∧
      ((enforced && (options zone delivery).mtaSts) = true → connection.secure = true)

/-- The connection of the pool that is next for a delivery. -/
def next (zone : Zone) (s : Senders) (delivery : Delivery) : Option (Nat × Connection) :=
  (connectionKey zone delivery).bind s.pooled

/-- If the pool has a connection under the key of the delivery, the two deliveries agree, and an
    enforced policy was already enforced when it was opened, or it is encrypted anyway. -/
def Agreeing (zone : Zone) (s : Senders) (e : Event) : Prop :=
  match s.tries e with
  | some (_, delivery, enforced) =>
    (s.next zone delivery).all fun (_, connection) =>
      decide (Agree zone connection.openedFor delivery) &&
        (!(enforced && (options zone delivery).mtaSts) || connection.enforceTLS ||
          connection.secure)
  | none => True

instance (zone : Zone) (s : Senders) (e : Event) : Decidable (Agreeing zone s e) := by
  unfold Agreeing
  split <;> infer_instance

theorem step_tries {e : Event} {enforced : Bool} (h : s.step zone e = some s')
    (htries : s.tries e = some (n, d, enforced)) :
    ∃ ignoreTLS, s.tryConnect zone n d ignoreTLS = some s' := by
  cases e with
  | getConnection m delivery =>
    obtain ⟨rfl, rfl, -⟩ := by simpa [tries] using htries
    simp only [step] at h
    split at h
    · exact ⟨_, h⟩
    · exact nomatch h
  | retry m noTLS =>
    obtain ⟨⟨delivery, phase⟩, hattempt, heq⟩ := Option.map_eq_some_iff.mp htries
    obtain ⟨rfl, rfl, -⟩ := by simpa using heq
    obtain ⟨attempt, hattempt', h⟩ := Option.bind_eq_some_iff.mp h
    obtain rfl := Option.some.inj (hattempt.symm.trans hattempt')
    cases phase with
    | connecting id ignoreTLS =>
      obtain ⟨connection, hconnection, h⟩ := Option.bind_eq_some_iff.mp h
      split at h
      · exact nomatch h
      · exact ⟨_, h⟩
    | _ => exact nomatch h
  | _ => exact nomatch htries

/-- The condition, with the delivery and the state after the step. -/
theorem reusesSame_of_tries {e : Event} {enforced : Bool} (h : s.step zone e = some s')
    (htries : s.tries e = some (n, d, enforced)) :
    ReusesSame zone s e ↔ ∀ id connection, s'.attempts.lookup n = some ⟨d, .sending id⟩ →
      s'.connections.lookup id = some connection → connection.options = options zone d ∧
        ((enforced && (options zone d).mtaSts) = true → connection.secure = true) := by
  constructor
  · exact fun hsame id connection => hsame n d enforced s' id connection htries h
  · intro hsame m delivery enforced' s'' id connection htries' hstep
    obtain ⟨rfl, rfl, rfl⟩ := by simpa using htries.symm.trans htries'
    obtain rfl := Option.some.inj (h.symm.trans hstep)
    exact hsame id connection

/-- The connection that a sender goes on with is like a new one if and only if the deliveries
    agree. -/
theorem reusesSame_iff {e : Event} (hs : Inv zone s) (h : s.step zone e = some s') :
    ReusesSame zone s e ↔ Agreeing zone s e := by
  cases htries : s.tries e with
  | none =>
    unfold Agreeing
    rw [htries]
    exact ⟨fun _ => trivial, fun _ _ _ _ _ _ _ h => nomatch htries.symm.trans h⟩
  | some found =>
    obtain ⟨n, d, enforced⟩ := found
    obtain ⟨ignoreTLS, htry⟩ := step_tries h htries
    obtain ⟨key, hkey, hcases⟩ := tryConnect_cases htry
    have hnext : s.next zone d = s.pooled key := by
      unfold next
      rw [hkey]
      rfl
    rw [reusesSame_of_tries h htries]
    unfold Agreeing
    rw [htries]
    dsimp only
    rw [hnext]
    rcases hcases with ⟨id, connection, hpooled, rfl⟩ | ⟨hpooled, rfl⟩
    · obtain ⟨⟨rest, hids⟩, hconnection, hopen⟩ := pooled_eq_some hpooled
      obtain ⟨hoptions, hsecure⟩ := hs.opened id connection hconnection
      obtain ⟨before, hbefore, hbeforeKey⟩ := hs.pooled key _ id hids List.mem_cons_self
      obtain rfl := Option.some.inj (hconnection.symm.trans hbefore)
      have hagree := options_eq_iff hbeforeKey hkey
      -- the connection of the pool is the one that the sender goes on with
      have hreused : (∀ id' connection', ((s.take key).wait n d (.sending id)).attempts.lookup n =
          some ⟨d, .sending id'⟩ → (s.take key).connections.lookup id' = some connection' →
            connection'.options = options zone d ∧
              ((enforced && (options zone d).mtaSts) = true → connection'.secure = true)) ↔
          connection.options = options zone d ∧
            ((enforced && (options zone d).mtaSts) = true → connection.secure = true) := by
        rw [take_connections]
        constructor
        · exact fun hall => hall id connection
            ((ForStd.lookup_insert ..).trans (if_pos rfl)) hconnection
        · intro hsame id' connection' hattempt hconnection'
          have heq := ((ForStd.lookup_insert ..).trans (if_pos rfl)).symm.trans hattempt
          obtain rfl : id = id' := by simpa using heq
          rw [hconnection] at hconnection'
          exact Option.some.inj hconnection' ▸ hsame
      refine hreused.trans ?_
      rw [hpooled, hoptions, hagree]
      cases hpolicy : (enforced && (options zone d).mtaSts) with
      | false => simp
      | true =>
        have hencrypted : (connection.enforceTLS || connection.secure) = true ↔
            connection.secure = true := by
          rw [Bool.or_eq_true]
          exact or_iff_right_of_imp (hsecure hopen)
        simpa using fun _ => hencrypted.symm
    · -- the sender waits for a new connection
      rw [hpooled]
      refine iff_of_true (fun id connection hattempt => ?_) rfl
      have heq := ((ForStd.lookup_insert ..).trans (if_pos rfl)).symm.trans hattempt
      exact nomatch congrArg Attempt.phase (Option.some.inj heq)

/-- In a run of the senders of a process, every connection of the pool that is used for a
    delivery is like a new one, if and only if the deliveries agree each time. -/
theorem reuse_iff {es : List Event} (hrun : run (step zone) {} es = some s) :
    Along (step zone) (ReusesSame zone) {} es ↔ Along (step zone) (Agreeing zone) {} es :=
  ForStd.along_congr (fun _ _ _ hs hstep => inv_step hs hstep)
    (fun _ _ _ hs hstep => reusesSame_iff hs hstep) (inv_init zone) hrun

/-- A zone without a host. -/
def plainZone : Zone where
  host := ""
  port := 0
  preferIPv6 := false
  ignoreTLS := false
  secure := false
  auth := none
  reuseCount := 0
  mtaSts := true

/-- A delivery for a domain. -/
def toDomain (domain : String) : Delivery where
  domain := domain
  zoneAddressIPv4 := some "192.0.2.1"
  zoneAddressIPv6 := some "2001:db8::1"

/-- A delivery is sent over a new connection, the next one over the same. -/
def twoDeliveries (first second : Delivery) : List Event :=
  [.getConnection 0 first false, .connect 0 7 false, .connected 0 true, .sent 0 true,
    .getConnection 1 second true]

/-- Two deliveries to a domain use one connection; by the second one the domain has a policy. -/
theorem reuse_iff_domain : ∃ s, run (step plainZone) {}
      (twoDeliveries (toDomain "example.com") (toDomain "example.com")) = some s ∧
    (s.attempts.lookup 1).map (·.phase) = some (.sending 7) ∧
      Along (step plainZone) (ReusesSame plainZone) {}
        (twoDeliveries (toDomain "example.com") (toDomain "example.com")) := by
  have hrun : (run (step plainZone) {}
      (twoDeliveries (toDomain "example.com") (toDomain "example.com"))).map
        (fun s => (s.attempts.lookup 1).map (·.phase)) = some (some (.sending 7)) := by
    decide +kernel
  obtain ⟨s, hs, hphase⟩ := Option.map_eq_some_iff.mp hrun
  exact ⟨s, hs, hphase, (reuse_iff hs).mpr (by decide +kernel)⟩

/-- The second delivery has no credentials, and is sent with the login of the first one. -/
theorem reuse_credentials :
    ¬∀ (zone : Zone) (es : List Event) (s : Senders), run (step zone) {} es = some s →
      Along (step zone) (ReusesSame zone) {} es := by
  intro h
  have hrun : (run (step plainZone) {} (twoDeliveries
      { toDomain "example.com" with mxAuth := some ⟨"relay", "secret"⟩ }
      (toDomain "example.com"))).isSome = true := by
    decide +kernel
  obtain ⟨s, hs⟩ := Option.isSome_iff_exists.mp hrun
  have hagree := (ForStd.along_congr (fun _ _ _ hs hstep => inv_step hs hstep)
    (fun _ _ _ hs hstep => reusesSame_iff hs hstep) (inv_init plainZone) hs).mp
      (h plainZone _ s hs)
  -- the credentials are not in the key
  revert hagree
  decide +kernel

end Senders

end ConnectionPool

end ZoneMta
