import DrbdTests.Cluster.Operations
import DrbdTests.Lib.Calendar
import Mathlib.Logic.Equiv.List

/-!
# `tls`

`setup_kernel_tls_helper` makes a certificate authority, gives each host a key with a certificate of it,
and stores the config of `tlshd` there. The times of validity are those of the local clock, but what is
written says that they are UTC.

What `tlshd` does with the files is a parameter, of which `TlshdLaws` says what is relied on.

`handshake_iff`: after the setup each host has a certificate of its own name, and any two of the hosts
trust each other, exactly for a day and an hour, which is shifted by the offset of the local time zone.
-/

namespace DrbdTests.Tls

open Stateful Calendar

/-- `TLSHD_CONFIG` -/
def tlshdConfig : String := "
[debug]
loglevel=10
tls=10

[authenticate.client]
x509.truststore=/etc/tlshd.d/ca.crt
x509.certificate=/etc/tlshd.d/tls.crt
x509.private_key=/etc/tlshd.d/tls.key

[authenticate.server]
x509.truststore=/etc/tlshd.d/ca.crt
x509.certificate=/etc/tlshd.d/tls.crt
x509.private_key=/etc/tlshd.d/tls.key
"

/-- `crypto.X509`; a key is known by its `crypto.PKey`. -/
structure Certificate where
  subject : String
  issuer : String
  notBefore : String
  notAfter : String
  pubkey : ObjectId
  signer : ObjectId
  deriving DecidableEq, Repr

/-- `crypto.dump_certificate` and `crypto.dump_privatekey`, with what reads their texts. -/
structure Pem where
  dumpCertificate : Certificate → String
  dumpPrivateKey : ObjectId → String
  loadCertificate : String → Option Certificate
  loadPrivateKey : String → Option ObjectId
  load_dumpCertificate : ∀ cert, loadCertificate (dumpCertificate cert) = some cert
  load_dumpPrivateKey : ∀ key, loadPrivateKey (dumpPrivateKey key) = some key

/-- `datetime.now()`: seconds of the local clock since the beginning of the year 1. A day before and
after it the year still has four digits. -/
structure Now where
  seconds : Nat
  first : (⟨1000, 1, 2, 0, 0, 0⟩ : DateTime).seconds ≤ seconds
  last : seconds < (⟨9999, 12, 31, 0, 0, 0⟩ : DateTime).seconds

/-- `f"{t:%Y%m%d%H%M%S}Z"` -/
def timestamp (t : Nat) : String := String.ofList (text (ofSeconds t) ++ ['Z'])

/-- `_gen_cert`: a name is set only when it has a character, and at most 64. -/
def genCert (now : Now) (pubkey : ObjectId) (commonName : String) (issuer : Option String)
    (signer : ObjectId) : Except PyError Certificate :=
  if commonName.length = 0 ∨ 64 < commonName.length then .error (.runtimeError "crypto.Error")
  else .ok {
    subject := commonName
    issuer := issuer.getD commonName
    notBefore := timestamp (now.seconds - 3600)
    notAfter := timestamp (now.seconds + 86400)
    pubkey := pubkey
    signer := signer }

/-- Store a text in a file of a host. -/
def store (host : HostId) (path text : String) : Py PUnit :=
  Host.act host ["bash", "-c", "cat > " ++ path] (some text) .none

/-- The part of `setup_kernel_tls_helper` for one host. -/
def setupHost (pem : Pem) (now : Now) (caKey : ObjectId) (caCert : Certificate) (host : HostId) :
    Py PUnit := do
  let nodeKey ← newObject
  let w ← get
  let nodeCert ← Py.liftExcept
    (genCert now nodeKey (w.host host).info.name (some caCert.issuer) caKey)
  Host.act host ["mkdir", "-p", "/etc/tlshd.d"] none .none
  store host "/etc/tlshd.conf" tlshdConfig
  store host "/etc/tlshd.d/ca.crt" (pem.dumpCertificate caCert)
  store host "/etc/tlshd.d/tls.crt" (pem.dumpCertificate nodeCert)
  store host "/etc/tlshd.d/tls.key" (pem.dumpPrivateKey nodeKey)
  -- the kernel may have the module built in
  let _ ← Host.runWith true host ["modprobe", "handshake"] none .none
  Host.act host ["systemctl", "restart", "tlshd.service"] none .none

/-- `setup_kernel_tls_helper` -/
def setupKernelTlsHelper (pem : Pem) (now : Now) (hosts : List HostId) : Py PUnit := do
  let caKey ← newObject
  let caCert ← Py.liftExcept (genCert now caKey "drbd9-tests" none caKey)
  hosts.forM (setupHost pem now caKey caCert)

/-! ## What `tlshd` does -/

/-- The text that a command stores in a file of a host. -/
def storedBy (host : HostId) (path : String) : Request × Bool → Option String
  | (.command h argv stdin _, true) =>
    if h = host ∧ argv = ["bash", "-c", "cat > " ++ path] then stdin else none
  | _ => none

/-- The text that was last stored in a file of a host. -/
def stored (w : World) (host : HostId) (path : String) : Option String :=
  w.requests.findSome? (storedBy host path)

def isPlainName (name : List Char) : Bool :=
  name ≠ [] && name.all fun c => c.isAlphanum || c ∈ ['.', '_', '/']

def isGroup (line : List Char) : Bool :=
  line.head? = some '[' && line.getLast? = some ']' && isPlainName (line.drop 1).dropLast

def isAssignment (line : List Char) : Bool :=
  isPlainName (line.takeWhile (· ≠ '=')) && isPlainName ((line.dropWhile (· ≠ '=')).drop 1)

/-- A config of groups with assignments, without comments, blanks and escapes. -/
structure PlainConfig (config : String) : Prop where
  chars : ∀ c ∈ config.toList, c.isAlphanum ∨ c ∈ ['\n', '[', ']', '=', '.', '_', '/']
  lines : ∀ line ∈ Text.splitlines config.toList, line = [] ∨ isGroup line ∨ isAssignment line
  first : ∀ line ∈ ((Text.splitlines config.toList).filter (· ≠ [])).head?, isGroup line

/-- The value of a key in a group of a plain config. -/
def configValue (config group key : String) : Option String :=
  let assignment := key.toList ++ ['=']
  let step := fun (state : Bool × Option String) (line : List Char) =>
    if line.head? = some '[' then (decide (line = '[' :: (group.toList ++ [']'])), state.2)
    else if state.1 ∧ assignment <+: line then
      (true, some (String.ofList (line.drop assignment.length)))
    else state
  ((Text.splitlines config.toList).foldl step (false, none)).2

structure Credentials where
  truststore : Certificate
  certificate : Certificate
  privateKey : ObjectId
  deriving DecidableEq, Repr

inductive Role
  | client
  | server

def Role.group : Role → String
  | client => "authenticate.client"
  | server => "authenticate.server"

structure Tlshd where
  /-- What it reads for a key in a group of its config. -/
  value : (config group key : String) → Option String
  /-- A side accepts the peer with the given name at a time. -/
  Accepts : (own peer : Credentials) → (name : String) → (t : Int) → Prop

/-- What `tlshd` reads for a role. -/
def credentials (tlshd : Tlshd) (pem : Pem) (w : World) (host : HostId) (role : Role) :
    Option Credentials := do
  let config ← stored w host "/etc/tlshd.conf"
  let file := fun key => (tlshd.value config role.group key).bind (stored w host)
  let truststore ← (file "x509.truststore").bind pem.loadCertificate
  let certificate ← (file "x509.certificate").bind pem.loadCertificate
  let privateKey ← (file "x509.private_key").bind pem.loadPrivateKey
  return ⟨truststore, certificate, privateKey⟩

/-- The time of a certificate, which is in UTC. -/
def utcTime (timestamp : String) : Option Nat :=
  if timestamp.toList.getLast? = some 'Z' then
    (read timestamp.toList.dropLast).map DateTime.seconds
  else none

def Certificate.validAt (cert : Certificate) (t : Int) : Bool :=
  match utcTime cert.notBefore, utcTime cert.notAfter with
  | some first, some last => first ≤ t && t ≤ last
  | _, _ => false

/-- The peer has the key of its certificate, the certificate comes from the trusted authority, and both
certificates are valid at the time. -/
structure Trusts (own peer : Credentials) (t : Int) : Prop where
  key : peer.certificate.pubkey = peer.privateKey
  issuer : peer.certificate.issuer = own.truststore.subject
  signer : peer.certificate.signer = own.truststore.pubkey
  authority_valid : own.truststore.validAt t = true
  valid : peer.certificate.validAt t = true

/-- What `tlshd` does with plain configs, and with certificates that come from the authority itself. It
may or may not compare the name. -/
structure TlshdLaws (tlshd : Tlshd) : Prop where
  value : ∀ config group key, PlainConfig config →
    tlshd.value config group key = configValue config group key
  trusts : ∀ own peer name t, tlshd.Accepts own peer name t → Trusts own peer t
  accepts : ∀ own peer name t, Trusts own peer t → peer.certificate.subject = name →
    tlshd.Accepts own peer name t

/-- A handshake succeeds: each side has credentials and accepts those of the other. -/
def Handshake (tlshd : Tlshd) (pem : Pem) (w : World) (client server : HostId) (t : Int) : Prop :=
  ∃ c s, credentials tlshd pem w client .client = some c ∧ credentials tlshd pem w server .server = some s ∧
    tlshd.Accepts c s (w.host server).info.name t ∧ tlshd.Accepts s c (w.host client).info.name t

/-! ## What the setup stores -/

variable {tlshd : Tlshd} {pem : Pem} {now : Now} {w w' : World} {host other : HostId} {caKey : ObjectId}
  {caCert : Certificate}

/-- The files of a host after its setup. -/
structure Configured (pem : Pem) (now : Now) (caKey : ObjectId) (caCert : Certificate) (w : World)
    (host : HostId) : Prop where
  config : stored w host "/etc/tlshd.conf" = some tlshdConfig
  truststore : stored w host "/etc/tlshd.d/ca.crt" = some (pem.dumpCertificate caCert)
  node : ∃ key cert, genCert now key (w.host host).info.name (some caCert.issuer) caKey = .ok cert ∧
    stored w host "/etc/tlshd.d/tls.crt" = some (pem.dumpCertificate cert) ∧
    stored w host "/etc/tlshd.d/tls.key" = some (pem.dumpPrivateKey key)

theorem runWith_catching_returns {cmd : List String} {stdin : Option String} {effect : Effect}
    {out : String} (h : Returns (Host.runWith true host cmd stdin effect) w out w') :
    ∃ ok, w' = { w with requests := (.command host cmd stdin effect, ok) :: w.requests } := by
  obtain ⟨ok, hexec⟩ := exec_runWith true host cmd stdin effect w
  rw [show exec _ w = (.ok out, w') from h] at hexec
  exact ⟨ok, hexec⟩

theorem liftExcept_returns {α : Type} {r : Except PyError α} {a : α}
    (h : Returns (Py.liftExcept r) w a w') : r = .ok a ∧ w' = w := by
  rw [Returns, exec_liftExcept] at h
  exact ⟨(Prod.mk.inj h).1, (Prod.mk.inj h).2.symm⟩

theorem newObject_returns {object : ObjectId} (h : Returns newObject w object w') :
    w' = { w with objectCount := w.objectCount + 1 } := (Prod.mk.inj h).2.symm

theorem setupHost_returns {u : PUnit} (h : Returns (setupHost pem now caKey caCert host) w u w') :
    w'.host = w.host ∧ ∃ key cert ok,
      genCert now key (w.host host).info.name (some caCert.issuer) caKey = .ok cert ∧
      w'.requests = [(.command host ["systemctl", "restart", "tlshd.service"] none .none, true),
        (.command host ["modprobe", "handshake"] none .none, ok),
        (.command host ["bash", "-c", "cat > " ++ "/etc/tlshd.d/tls.key"]
          (some (pem.dumpPrivateKey key)) .none, true),
        (.command host ["bash", "-c", "cat > " ++ "/etc/tlshd.d/tls.crt"]
          (some (pem.dumpCertificate cert)) .none, true),
        (.command host ["bash", "-c", "cat > " ++ "/etc/tlshd.d/ca.crt"]
          (some (pem.dumpCertificate caCert)) .none, true),
        (.command host ["bash", "-c", "cat > " ++ "/etc/tlshd.conf"] (some tlshdConfig) .none, true),
        (.command host ["mkdir", "-p", "/etc/tlshd.d"] none .none, true)] ++ w.requests := by
  unfold setupHost at h
  obtain ⟨key, _, hkey, h⟩ := returns_bind.mp h
  obtain rfl := newObject_returns hkey
  rw [returns_get_bind] at h
  obtain ⟨cert, _, hcert, h⟩ := returns_bind.mp h
  obtain ⟨hgen, rfl⟩ := liftExcept_returns hcert
  obtain ⟨_, _, hact, h⟩ := returns_bind.mp h
  obtain rfl := act_returns hact
  obtain ⟨_, _, hact, h⟩ := returns_bind.mp h
  obtain rfl := act_returns hact
  obtain ⟨_, _, hact, h⟩ := returns_bind.mp h
  obtain rfl := act_returns hact
  obtain ⟨_, _, hact, h⟩ := returns_bind.mp h
  obtain rfl := act_returns hact
  obtain ⟨_, _, hact, h⟩ := returns_bind.mp h
  obtain rfl := act_returns hact
  obtain ⟨_, _, hrun, h⟩ := returns_bind.mp h
  obtain ⟨ok, rfl⟩ := runWith_catching_returns hrun
  obtain rfl := act_returns h
  exact ⟨rfl, key, cert, ok, hgen, rfl⟩

theorem storedBy_other {argv : List String} {stdin : Option String} {effect : Effect} {ok : Bool}
    {path : String} (h : argv.head? ≠ some "bash") :
    storedBy host path (.command other argv stdin effect, ok) = none := by
  cases ok with
  | false => rfl
  | true =>
    refine if_neg fun hsame => h ?_
    rw [hsame.2]
    rfl

theorem storedBy_host {argv : List String} {stdin : Option String} {effect : Effect} {ok : Bool}
    {path : String} (h : other ≠ host) :
    storedBy host path (.command other argv stdin effect, ok) = none := by
  cases ok with
  | false => rfl
  | true => exact if_neg fun hsame => h hsame.1

theorem storedBy_file {file path : String} {stdin : Option String} {effect : Effect} :
    storedBy host path (.command host ["bash", "-c", "cat > " ++ file] stdin effect, true) =
      if file = path then stdin else none := by
  unfold storedBy
  simp only [List.cons.injEq, String.append_right_inj, true_and, and_true]

theorem configured_setupHost {u : PUnit} (h : Returns (setupHost pem now caKey caCert host) w u w') :
    Configured pem now caKey caCert w' host := by
  obtain ⟨hhost, key, cert, ok, hgen, hrequests⟩ := setupHost_returns h
  refine ⟨?_, ?_, key, cert, by rw [hhost, hgen], ?_, ?_⟩
  all_goals
    rw [stored, hrequests]
    simp only [List.cons_append, List.nil_append, List.findSome?_cons, storedBy_file]
    rw [storedBy_other (by decide), storedBy_other (by decide)]
    rfl

/-- The files of the other hosts stay as they are. -/
theorem stored_setupHost {u : PUnit} (h : Returns (setupHost pem now caKey caCert host) w u w')
    (hother : other ≠ host) (path : String) : stored w' other path = stored w other path := by
  obtain ⟨-, key, cert, ok, -, hrequests⟩ := setupHost_returns h
  rw [stored, hrequests, stored]
  simp only [List.cons_append, List.nil_append, List.findSome?_cons, storedBy_host hother.symm]

theorem configured_forM {hosts : List HostId} {u : PUnit}
    (h : Returns (hosts.forM (setupHost pem now caKey caCert)) w u w') :
    w'.host = w.host ∧ ∀ host ∈ hosts, Configured pem now caKey caCert w' host := by
  refine Returns.forM_invariant
    (fun done s => s.host = w.host ∧ ∀ host ∈ done, Configured pem now caKey caCert s host) h
    ⟨rfl, by simp⟩ ?_
  rintro done next _ s s' _ ⟨hnames, hdone⟩ hstep
  obtain ⟨hhost, -⟩ := setupHost_returns hstep
  refine ⟨hhost.trans hnames, fun host hmem => ?_⟩
  by_cases hsame : host = next
  · subst hsame
    exact configured_setupHost hstep
  · obtain ⟨hconfig, htrust, key, cert, hgen, hcrt, hkey⟩ := hdone host (by simpa [hsame] using hmem)
    have hstored := stored_setupHost hstep hsame
    exact ⟨by rw [hstored, hconfig], by rw [hstored, htrust], key, cert, by rw [hhost, hgen],
      by rw [hstored, hcrt], by rw [hstored, hkey]⟩

/-! ## What `tlshd` reads -/

theorem seconds_first : (⟨1000, 1, 1, 0, 0, 0⟩ : DateTime).seconds = 364877 * 86400 := by decide

theorem seconds_dayAfter : (⟨1000, 1, 2, 0, 0, 0⟩ : DateTime).seconds = 364878 * 86400 := by decide

theorem seconds_dayBefore : (⟨9999, 12, 31, 0, 0, 0⟩ : DateTime).seconds = 3652058 * 86400 := by decide

theorem seconds_end : (⟨10000, 1, 1, 0, 0, 0⟩ : DateTime).seconds = 3652059 * 86400 := by decide

theorem utcTime_timestamp {t : Nat} (h : (⟨1000, 1, 1, 0, 0, 0⟩ : DateTime).seconds ≤ t)
    (hlt : t < (⟨10000, 1, 1, 0, 0, 0⟩ : DateTime).seconds) : utcTime (timestamp t) = some t := by
  have hread := read_text_ofSeconds h hlt
  rw [utcTime, timestamp, String.toList_ofList, List.getLast?_concat, if_pos rfl, List.dropLast_concat,
    hread, Option.map_some, seconds_ofSeconds]

theorem validAt_iff {cert : Certificate} {first last : Nat} (hfirst : utcTime cert.notBefore = some first)
    (hlast : utcTime cert.notAfter = some last) {t : Int} :
    cert.validAt t = true ↔ (first : Int) ≤ t ∧ t ≤ last := by
  rw [Certificate.validAt, hfirst, hlast, Bool.and_eq_true, decide_eq_true_eq, decide_eq_true_eq]

theorem genCert_ok {pubkey signer : ObjectId} {commonName : String} {issuer : Option String}
    {cert : Certificate} (h : genCert now pubkey commonName issuer signer = .ok cert) :
    cert.subject = commonName ∧ cert.issuer = issuer.getD commonName ∧ cert.pubkey = pubkey ∧
      cert.signer = signer ∧ ∀ t : Int, cert.validAt t = true ↔
        (now.seconds : Int) - 3600 ≤ t ∧ t ≤ now.seconds + 86400 := by
  unfold genCert at h
  split at h
  · cases h
  · have hcert := Except.ok.inj h
    have hnotBefore : cert.notBefore = timestamp (now.seconds - 3600) := by rw [← hcert]
    have hnotAfter : cert.notAfter = timestamp (now.seconds + 86400) := by rw [← hcert]
    refine ⟨by rw [← hcert], by rw [← hcert], by rw [← hcert], by rw [← hcert], fun t => ?_⟩
    obtain ⟨seconds, hfirst, hlast⟩ := now
    rw [seconds_dayAfter] at hfirst
    rw [seconds_dayBefore] at hlast
    have hbefore : utcTime (timestamp (seconds - 3600)) = some (seconds - 3600) :=
      utcTime_timestamp (by rw [seconds_first]; omega) (by rw [seconds_end]; omega)
    have hafter : utcTime (timestamp (seconds + 86400)) = some (seconds + 86400) :=
      utcTime_timestamp (by rw [seconds_first]; omega) (by rw [seconds_end]; omega)
    rw [← hnotBefore] at hbefore
    rw [← hnotAfter] at hafter
    rw [validAt_iff hbefore hafter]
    dsimp only
    omega

/-- The lines of `tlshdConfig`. -/
def tlshdLines : List String :=
  ["", "[debug]", "loglevel=10", "tls=10", "", "[authenticate.client]",
    "x509.truststore=/etc/tlshd.d/ca.crt", "x509.certificate=/etc/tlshd.d/tls.crt",
    "x509.private_key=/etc/tlshd.d/tls.key", "", "[authenticate.server]",
    "x509.truststore=/etc/tlshd.d/ca.crt", "x509.certificate=/etc/tlshd.d/tls.crt",
    "x509.private_key=/etc/tlshd.d/tls.key"]

set_option maxRecDepth 4000 in
theorem splitlines_tlshdConfig :
    Text.splitlines tlshdConfig.toList = tlshdLines.map String.toList := by
  -- the kernel takes the characters from the literal, which is faster than to decode it
  have hchars : tlshdConfig.toList = _ := String.toList_ofList
  rw [hchars]
  decide +kernel

/-- Both roles have the same files in a config of these lines. -/
theorem configValue_of_lines {config : String}
    (hlines : Text.splitlines config.toList = tlshdLines.map String.toList) (role : Role) :
    configValue config role.group "x509.truststore" = some "/etc/tlshd.d/ca.crt" ∧
    configValue config role.group "x509.certificate" = some "/etc/tlshd.d/tls.crt" ∧
    configValue config role.group "x509.private_key" = some "/etc/tlshd.d/tls.key" := by
  unfold configValue
  rw [hlines]
  cases role with
  | client => decide +kernel
  | server => decide +kernel

set_option maxRecDepth 4000 in
theorem plain_tlshdConfig : PlainConfig tlshdConfig where
  chars := by
    have hchars : tlshdConfig.toList = _ := String.toList_ofList
    rw [hchars]
    decide +kernel
  lines := by
    rw [splitlines_tlshdConfig]
    decide +kernel
  first := by
    rw [splitlines_tlshdConfig]
    decide +kernel

/-- What `tlshd` reads with a config of these lines. -/
theorem credentials_of_lines (hlaws : TlshdLaws tlshd) {config : String} {cert : Certificate}
    {key : ObjectId} (hplain : PlainConfig config)
    (hlines : Text.splitlines config.toList = tlshdLines.map String.toList)
    (hconfig : stored w host "/etc/tlshd.conf" = some config)
    (htrust : stored w host "/etc/tlshd.d/ca.crt" = some (pem.dumpCertificate caCert))
    (hcrt : stored w host "/etc/tlshd.d/tls.crt" = some (pem.dumpCertificate cert))
    (hkey : stored w host "/etc/tlshd.d/tls.key" = some (pem.dumpPrivateKey key)) (role : Role) :
    credentials tlshd pem w host role = some ⟨caCert, cert, key⟩ := by
  obtain ⟨hca, htls, hprivate⟩ := configValue_of_lines hlines role
  have hvalue : ∀ group key, tlshd.value config group key = configValue config group key :=
    fun group key => hlaws.value config group key hplain
  simp only [credentials, hconfig, hvalue, hca, htls, hprivate, htrust, hcrt, hkey, Option.bind_eq_bind,
    Option.bind_some, pem.load_dumpCertificate, pem.load_dumpPrivateKey, Option.pure_def]

/-- A host that is set up has a certificate of the authority. -/
theorem credentials_configured (hlaws : TlshdLaws tlshd) (h : Configured pem now caKey caCert w host) :
    ∃ key cert, genCert now key (w.host host).info.name (some caCert.issuer) caKey = .ok cert ∧
      ∀ role, credentials tlshd pem w host role = some ⟨caCert, cert, key⟩ := by
  obtain ⟨hconfig, htrust, key, cert, hgen, hcrt, hkey⟩ := h
  exact ⟨key, cert, hgen, fun role =>
    credentials_of_lines hlaws plain_tlshdConfig splitlines_tlshdConfig hconfig htrust hcrt hkey role⟩

/-- When certificates of an authority are trusted: at the times of the setup. -/
theorem trusts_iff {own peer : Credentials} {name : String} {key : ObjectId}
    (hca : genCert now caKey "drbd9-tests" none caKey = .ok caCert)
    (hgen : genCert now key name (some caCert.issuer) caKey = .ok peer.certificate)
    (hown : own.truststore = caCert) (hkey : peer.privateKey = key) {t : Int} :
    Trusts own peer t ↔ (now.seconds : Int) - 3600 ≤ t ∧ t ≤ now.seconds + 86400 := by
  obtain ⟨hsubject, hissuer, hpubkey, -, hvalid⟩ := genCert_ok hca
  obtain ⟨-, hissuer', hpubkey', hsigner', hvalid'⟩ := genCert_ok hgen
  constructor
  · intro htrusts
    exact (hvalid' t).mp htrusts.valid
  · intro ht
    refine ⟨by rw [hpubkey', hkey], ?_, ?_, ?_, (hvalid' t).mpr ht⟩
    · rw [hown, hissuer', hissuer, hsubject, Option.getD_some, Option.getD_none]
    · rw [hown, hsigner', hpubkey]
    · rw [hown]
      exact (hvalid t).mpr ht

/-- After the setup each host has a certificate of its own name, and any two of the hosts can shake
hands, from one hour before the local time of the setup until a day after it, both taken as UTC. -/
theorem handshake_iff (hlaws : TlshdLaws tlshd) {hosts : List HostId} {u : PUnit}
    (h : Returns (setupKernelTlsHelper pem now hosts) w u w') {utc offset : Int}
    (hnow : (now.seconds : Int) = utc + offset) :
    (∀ host ∈ hosts, ∀ role, ∃ c, credentials tlshd pem w' host role = some c ∧
      c.certificate.subject = (w.host host).info.name) ∧
    ∀ client ∈ hosts, ∀ server ∈ hosts, ∀ elapsed : Int,
      Handshake tlshd pem w' client server (utc + elapsed) ↔
        offset - 3600 ≤ elapsed ∧ elapsed ≤ offset + 86400 := by
  unfold setupKernelTlsHelper at h
  obtain ⟨caKey, w₁, hkey, h⟩ := returns_bind.mp h
  obtain rfl := newObject_returns hkey
  obtain ⟨caCert, w₂, hca, h⟩ := returns_bind.mp h
  obtain ⟨hgenCa, rfl⟩ := liftExcept_returns hca
  obtain ⟨hhost, hconfigured⟩ := configured_forM h
  constructor
  · intro host hmem role
    obtain ⟨key, cert, hgen, hread⟩ := credentials_configured hlaws (hconfigured host hmem)
    refine ⟨_, hread role, ?_⟩
    rw [(genCert_ok hgen).1, hhost]
  intro client hclient server hserver elapsed
  obtain ⟨ckey, ccert, hcgen, hcread⟩ := credentials_configured hlaws (hconfigured client hclient)
  obtain ⟨skey, scert, hsgen, hsread⟩ := credentials_configured hlaws (hconfigured server hserver)
  have hserverTrusted : Trusts ⟨caCert, ccert, ckey⟩ ⟨caCert, scert, skey⟩ (utc + elapsed) ↔ _ :=
    trusts_iff hgenCa hsgen rfl rfl
  have hclientTrusted : Trusts ⟨caCert, scert, skey⟩ ⟨caCert, ccert, ckey⟩ (utc + elapsed) ↔ _ :=
    trusts_iff hgenCa hcgen rfl rfl
  constructor
  · rintro ⟨c, s, hc, hs, haccepts, -⟩
    obtain rfl := Option.some.inj (hc.symm.trans (hcread .client))
    obtain rfl := Option.some.inj (hs.symm.trans (hsread .server))
    have htimes := hserverTrusted.mp (hlaws.trusts _ _ _ _ haccepts)
    omega
  · intro htimes
    have htimes' : (now.seconds : Int) - 3600 ≤ utc + elapsed ∧ utc + elapsed ≤ now.seconds + 86400 := by
      omega
    refine ⟨_, _, hcread .client, hsread .server, ?_, ?_⟩
    · exact hlaws.accepts _ _ _ _ (hserverTrusted.mpr htimes') (genCert_ok hsgen).1
    · exact hlaws.accepts _ _ _ _ (hclientTrusted.mpr htimes') (genCert_ok hcgen).1

/-! ## Two hosts -/

/-- A text for lists of numbers. -/
def encode (fields : List (List Nat)) : String := toString (Encodable.encode fields)

def decode (text : String) : Option (List (List Nat)) := (Text.decimal text.toList).bind Encodable.decode

theorem decode_encode (fields : List (List Nat)) : decode (encode fields) = some fields := by
  rw [decode, encode, Text.decimal_toString, Option.bind_some, Encodable.encodek]

theorem ofList_map_ofNat (text : String) :
    String.ofList ((text.toList.map Char.toNat).map Char.ofNat) = text := by
  rw [List.map_map, show Char.ofNat ∘ Char.toNat = id from funext Char.ofNat_toNat, List.map_id,
    String.ofList_toList]

/-- Texts that stand for PEM. -/
def encoding : Pem where
  dumpCertificate cert := encode [cert.subject.toList.map Char.toNat, cert.issuer.toList.map Char.toNat,
    cert.notBefore.toList.map Char.toNat, cert.notAfter.toList.map Char.toNat, [cert.pubkey, cert.signer]]
  dumpPrivateKey key := encode [[key]]
  loadCertificate data :=
    match decode data with
    | some [subject, issuer, notBefore, notAfter, [pubkey, signer]] =>
      some ⟨String.ofList (subject.map Char.ofNat), String.ofList (issuer.map Char.ofNat),
        String.ofList (notBefore.map Char.ofNat), String.ofList (notAfter.map Char.ofNat), pubkey, signer⟩
    | _ => none
  loadPrivateKey data :=
    match decode data with
    | some [[key]] => some key
    | _ => none
  load_dumpCertificate cert := by
    rw [decode_encode]
    simp only [ofList_map_ofNat]
  load_dumpPrivateKey key := by rw [decode_encode]

/-- Noon of 2024-06-01. -/
def june : Now where
  seconds := (⟨2024, 6, 1, 12, 0, 0⟩ : DateTime).seconds
  first := by decide
  last := by decide

/-- A `tlshd` that compares the names. -/
def comparing : Tlshd where
  value := configValue
  Accepts own peer name t := Trusts own peer t ∧ peer.certificate.subject = name

theorem comparing_laws : TlshdLaws comparing where
  value _ _ _ _ := rfl
  trusts _ _ _ _ h := h.1
  accepts _ _ _ _ htrusts hname := ⟨htrusts, hname⟩

/-- Two hosts with names of their own. -/
def namedHosts : World :=
  { World.plain 2 with
    host := fun h =>
      { (World.plain 2).host h with
        info := { ((World.plain 2).host h).info with name := ["alpha", "beta"].getD h "" } } }

/-- Two hours east of Greenwich the certificates are not valid yet when the setup is done; an hour later
they are. -/
theorem handshake_iff_east : ∃ w', Returns (setupKernelTlsHelper encoding june [0, 1]) namedHosts ⟨⟩ w' ∧
    (∀ host ∈ [0, 1], ∀ role, ∃ c, credentials comparing encoding w' host role = some c ∧
      c.certificate.subject = (namedHosts.host host).info.name) ∧
    ¬ Handshake comparing encoding w' 0 1 ((⟨2024, 6, 1, 10, 0, 0⟩ : DateTime).seconds + 0) ∧
    Handshake comparing encoding w' 0 1 ((⟨2024, 6, 1, 10, 0, 0⟩ : DateTime).seconds + 3600) := by
  have hreturns := returns_of_toBool
    (show (exec (setupKernelTlsHelper encoding june [0, 1]) namedHosts).1.toBool = true by
      decide +kernel)
  have hnow : (june.seconds : Int) = (⟨2024, 6, 1, 10, 0, 0⟩ : DateTime).seconds + 7200 := by decide
  obtain ⟨hnames, htimes⟩ := handshake_iff comparing_laws hreturns hnow
  have hiff := htimes 0 (by decide) 1 (by decide)
  refine ⟨_, hreturns, hnames, ?_, (hiff 3600).mpr (by decide)⟩
  rw [hiff 0]
  decide

end DrbdTests.Tls
