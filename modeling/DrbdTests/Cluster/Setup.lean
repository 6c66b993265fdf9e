import DrbdTests.Cluster.Layout
import DrbdTests.Lib.Fnmatch

/-!
# Expected DRBD versions

`setup` makes the host objects in the order of the command line and installs the other version on
the one whose index was given. `Cluster.validate_drbd_versions` then compares what is installed with
what was asked for. Which host is to have the other version is not checked there: an index that
names no host leaves the flag `has_other_version` clear everywhere (`versions_validated_iff`).
-/

namespace DrbdTests

open Stateful Fnmatch

/-- The arguments of the program that are about versions. -/
structure VersionArgs where
  hosts : List HostId
  drbdVersion : Option String
  drbdVersionOther : Option String
  drbdOtherNode : Int

/-- A host with its attribute `has_other_version`. -/
structure ListedHost where
  host : HostId
  hasOtherVersion : Bool
  deriving DecidableEq, Repr

namespace VersionArgs

/-- Whether the other version is installed on the host with this index. -/
def isOther (args : VersionArgs) (i : Nat) : Bool :=
  Config.truthy args.drbdVersionOther && decide ((i : Int) = args.drbdOtherNode)

/-- The loop of `setup`, for one host. `Host.__init__` reads the version that is installed. -/
def addHost (args : VersionArgs) (h : HostId) (i : Nat) : Py ListedHost := do
  Host.readDrbdVersion h
  when (args.isOther i) (Host.installDrbd h (args.drbdVersionOther.getD ""))
  return ⟨h, args.isOther i⟩

def addHosts (args : VersionArgs) : Py (List ListedHost) :=
  args.hosts.zipIdx.mapM fun (h, i) => args.addHost h i

/-- `expect_version` in `validate_drbd_versions`. -/
def expectVersion (args : VersionArgs) (host : ListedHost) : Option String :=
  if Config.truthy args.drbdVersionOther && host.hasOtherVersion then args.drbdVersionOther
  else if Config.truthy args.drbdVersion then args.drbdVersion
  else none

/-- `validate_drbd_versions`, for one host: `git_hashes` after it. -/
def validateHost (args : VersionArgs) (w : World) (gitHashes : OrderedSet String)
    (host : ListedHost) : Except PyError (OrderedSet String) :=
  let info := (w.host host.host).info
  let gitHashes :=
    if (Config.truthy args.drbdVersionOther && host.hasOtherVersion) = false ∧
        Config.truthy args.drbdVersion then gitHashes.add info.drbdGitHash
    else gitHashes
  match args.expectVersion host with
  | some expected =>
    if fnmatchcase info.drbdVersion expected then .ok gitHashes
    else .error (.runtimeError (info.name ++ ": expect DRBD version '" ++ expected ++ "'; found '"
      ++ info.drbdVersion ++ "'"))
  | none => .ok gitHashes

/-- A set as it is printed, in some order. -/
def setText (texts : List String) : String :=
  "\x7b" ++ ", ".intercalate (texts.map fun s => "'" ++ s ++ "'") ++ "\x7d"

/-- `validate_drbd_versions` -/
def validate (args : VersionArgs) (w : World) (hosts : List ListedHost) : Except PyError PUnit := do
  let gitHashes ← hosts.foldlM (args.validateHost w) OrderedSet.empty
  if 1 < gitHashes.length then
    .error (.runtimeError ("Differing git hashes found for DRBD version '" ++
      args.drbdVersion.getD "None" ++ "': " ++ setText gitHashes.items))
  else .ok ⟨⟩

/-- `setup`, up to the validation. -/
def setup (args : VersionArgs) : Py (List ListedHost) := do
  let hosts ← args.addHosts
  let w ← get
  Py.liftExcept (args.validate w hosts)
  return hosts

/-- What the version arguments ask for. The remaining hosts are those without the other version. -/
def Met (args : VersionArgs) (w : World) (hosts : List ListedHost) : Prop :=
  (∀ other, args.drbdVersionOther = some other → (∃ host ∈ hosts, host.hasOtherVersion = true) ∧
    ∀ host ∈ hosts, host.hasOtherVersion = true →
      fnmatchcase (w.host host.host).info.drbdVersion other = true) ∧
  (∀ version, args.drbdVersion = some version →
    (∀ host ∈ hosts, host.hasOtherVersion = false →
      fnmatchcase (w.host host.host).info.drbdVersion version = true) ∧
    ∀ host ∈ hosts, ∀ host' ∈ hosts, host.hasOtherVersion = false → host'.hasOtherVersion = false →
      (w.host host.host).info.drbdGitHash = (w.host host'.host).info.drbdGitHash)

/-- The index names a host when the other version is given, and neither version is empty. (An
empty version is no version for the program; if all hosts get the other version, an empty
`drbd_version` is never looked at.) -/
def Named (args : VersionArgs) : Prop :=
  (∀ other, args.drbdVersionOther = some other →
    other ≠ "" ∧ ∃ i < args.hosts.length, (i : Int) = args.drbdOtherNode) ∧
  (args.drbdVersion = some "" → ∀ i < args.hosts.length, args.isOther i = true)

end VersionArgs

/-! ## Installed versions -/

/-- The version of the host stays as it is. -/
def keepingVersion (k : HostId) : Frame World := Frame.fixing fun w => (w.host k).info.drbdVersion

variable {w w' : World} {h k : HostId}

theorem keepingVersion_of_asking {α : Type} {m : Py α} (hm : asking.Holds m) :
    (keepingVersion k).Holds m :=
  hm.mono fun w w' hw => by
    have hversion := congrArg (fun w => (World.host w k).info.drbdVersion) hw.1
    exact hversion

theorem keepingVersion_setInfo {f : HostInfo → HostInfo}
    (hf : k = h → ∀ info, (f info).drbdVersion = info.drbdVersion) :
    (keepingVersion k).Holds (Host.setInfo h f) := by
  refine Frame.holds_modify fun w => ?_
  change ((w.setHost h fun host => { host with info := f host.info }).host k).info.drbdVersion = _
  rw [World.setHost_host]
  split
  · rename_i hk
    subst hk
    exact hf rfl _
  · rfl

theorem keepingVersion_touchConfig (r : ResourceId) :
    (keepingVersion k).Holds (Resource.touchConfig r) :=
  (keepingGraph_touchConfig r).mono fun _ _ hg => congrArg HostInfo.drbdVersion (graph_hostInfo hg k)

theorem keepingVersion_readDrbdVersion (hk : k ≠ h) :
    (keepingVersion k).Holds (Host.readDrbdVersion h) :=
  holds_readDrbdVersion h (fun cmd => keepingVersion_of_asking (asking_run h cmd))
    fun _ => keepingVersion_setInfo fun heq => absurd heq hk

theorem matchVersionLine_ne_nil {line version : List Char} (hm : matchVersionLine line = some version) :
    version ≠ [] := by
  unfold matchVersionLine at hm
  split at hm
  · cases hm
    exact List.cons_ne_nil _ _
  · cases hm

/-- A version that has been read is not empty. -/
theorem readDrbdVersion_ne_empty {u : PUnit} (hr : Returns (Host.readDrbdVersion h) w u w') :
    (w'.host h).info.drbdVersion ≠ "" := by
  have hkeep : ∀ (f : HostInfo → HostInfo), (∀ info, (f info).drbdVersion = info.drbdVersion) →
      (keepingVersion h).Holds (Host.setInfo h f) := fun f hf => keepingVersion_setInfo fun _ => hf
  rw [Host.readDrbdVersion, returns_get_bind] at hr
  split at hr
  · obtain ⟨_, _, -, hr⟩ := returns_bind.mp hr
    obtain ⟨out, w₁, -, hr⟩ := returns_bind.mp hr
    split at hr
    · rename_i versionLine hashLine rest hlines
      obtain ⟨version, w₂, hversion, hr⟩ := returns_bind.mp hr
      obtain ⟨_, w₃, hset, hr⟩ := returns_bind.mp hr
      have hne : (w₃.host h).info.drbdVersion ≠ "" := by
        rcases hmatch : matchVersionLine versionLine with _ | version'
        · rw [hmatch] at hversion
          cases returns_throw.mp hversion
        · rw [hmatch] at hversion
          obtain ⟨rfl, -⟩ := returns_pure.mp hversion
          rw [← returns_modify.mp hset, World.setHost_host, if_pos rfl]
          intro heq
          exact matchVersionLine_ne_nil hmatch (String.ofList_eq_empty_iff.mp heq)
      have hrest := Frame.holds_bind (holds_groupOf (F := keepingVersion h) (matchHashLine hashLine))
        (fun hash => Frame.holds_bind
          (hkeep (fun info => { info with drbdGitHash := String.ofList (hash.map Char.toLower) })
            fun _ => rfl) fun _ =>
          Frame.holds_bind (holds_groupOf (matchVersion version)) fun tuple =>
            hkeep (fun info => { info with drbdVersionTuple := tuple }) fun _ => rfl)
      rw [show (w'.host h).info.drbdVersion = (w₃.host h).info.drbdVersion from
        hrest.rel_of_returns hr]
      exact hne
    · cases returns_throw.mp hr
  · obtain ⟨out, w₁, -, hr⟩ := returns_bind.mp hr
    obtain ⟨_, w₂, -, hr⟩ := returns_bind.mp hr
    rw [returns_get_bind] at hr
    obtain ⟨tuple, w₃, htuple, hr⟩ := returns_bind.mp hr
    have hset := hkeep (fun info => { info with drbdVersionTuple := tuple }) fun _ => rfl
    rw [show (w'.host h).info.drbdVersion = (w₃.host h).info.drbdVersion from
      hset.rel_of_returns hr]
    rcases hmatch : matchVersion (w₂.host h).info.drbdVersion.toList with _ | tuple'
    · rw [hmatch] at htuple
      cases returns_throw.mp htuple
    · rw [hmatch] at htuple
      obtain ⟨-, rfl⟩ := returns_pure.mp htuple
      intro heq
      rw [heq] at hmatch
      cases hmatch

theorem installDrbd_ne_empty {version : String} {u : PUnit}
    (hr : Returns (Host.installDrbd h version) w u w') : (w'.host h).info.drbdVersion ≠ "" := by
  obtain ⟨_, _, -, hr⟩ := returns_bind.mp hr
  obtain ⟨_, _, -, hr⟩ := returns_bind.mp hr
  obtain ⟨_, w₁, hread, hr⟩ := returns_bind.mp hr
  rw [returns_get_bind] at hr
  have htouch := Frame.holds_forM w₁.resources fun r _ => keepingVersion_touchConfig (k := h) r
  rw [show (w'.host h).info.drbdVersion = (w₁.host h).info.drbdVersion from
    htouch.rel_of_returns hr]
  exact readDrbdVersion_ne_empty hread

theorem keepingVersion_installDrbd (version : String) (hk : k ≠ h) :
    (keepingVersion k).Holds (Host.installDrbd h version) := by
  refine Frame.holds_bind (keepingVersion_of_asking (asking_rmmod h)) fun _ => ?_
  refine Frame.holds_bind (keepingVersion_of_asking (asking_runHelper h _ _)) fun _ => ?_
  refine Frame.holds_bind (keepingVersion_readDrbdVersion hk) fun _ => ?_
  exact Frame.holds_bind Frame.holds_get fun w =>
    Frame.holds_forM _ fun r _ => keepingVersion_touchConfig r

/-! ## The loop of `setup` -/

namespace VersionArgs

variable {args : VersionArgs}

theorem addHost_returns {i : Nat} {host : ListedHost} (hr : Returns (args.addHost h i) w host w') :
    host = ⟨h, args.isOther i⟩ ∧ (w'.host h).info.drbdVersion ≠ "" ∧
      ∀ k, (w.host k).info.drbdVersion ≠ "" → (w'.host k).info.drbdVersion ≠ "" := by
  obtain ⟨_, w₁, hread, hr⟩ := returns_bind.mp hr
  obtain ⟨_, w₂, hinstall, hr⟩ := returns_bind.mp hr
  obtain ⟨rfl, rfl⟩ := returns_pure.mp hr
  have hne : (w₂.host h).info.drbdVersion ≠ "" := by
    rw [returns_when] at hinstall
    split at hinstall
    · exact installDrbd_ne_empty hinstall
    · rw [← hinstall]
      exact readDrbdVersion_ne_empty hread
  refine ⟨rfl, hne, fun k hk => ?_⟩
  by_cases hkh : k = h
  · rw [hkh]
    exact hne
  · have hreading := (keepingVersion_readDrbdVersion hkh).rel_of_returns hread
    have hinstalling := (Frame.holds_when fun _ =>
      keepingVersion_installDrbd (args.drbdVersionOther.getD "") hkh).rel_of_returns hinstall
    rw [show (w₂.host k).info.drbdVersion = (w.host k).info.drbdVersion from
      (keepingVersion k).trans hreading hinstalling]
    exact hk

/-- The list of the hosts, with their flags, when `setup` has made them. -/
theorem mapM_addHost_returns {hosts : List (HostId × Nat)} {listed : List ListedHost}
    (hr : Returns (hosts.mapM fun (h, i) => args.addHost h i) w listed w') :
    listed = hosts.map (fun p => ⟨p.1, args.isOther p.2⟩) ∧
      (∀ p ∈ hosts, (w'.host p.1).info.drbdVersion ≠ "") ∧
      ∀ k, (w.host k).info.drbdVersion ≠ "" → (w'.host k).info.drbdVersion ≠ "" := by
  induction hosts generalizing w listed with
  | nil =>
    rw [List.mapM_nil] at hr
    obtain ⟨rfl, rfl⟩ := returns_pure.mp hr
    exact ⟨rfl, by simp, fun _ hk => hk⟩
  | cons p hosts ih =>
    rw [List.mapM_cons] at hr
    obtain ⟨host, w₁, hhost, hr⟩ := returns_bind.mp hr
    obtain ⟨rest, w₂, hrest, hr⟩ := returns_bind.mp hr
    obtain ⟨rfl, rfl⟩ := returns_pure.mp hr
    obtain ⟨rfl, hne, hkeep⟩ := addHost_returns hhost
    obtain ⟨rfl, hall, hkeep'⟩ := ih hrest
    refine ⟨rfl, fun q hq => ?_, fun k hk => hkeep' k (hkeep k hk)⟩
    rcases List.mem_cons.mp hq with rfl | hq
    · exact hkeep' _ hne
    · exact hall q hq

/-! ## The validation -/

/-- A host that passes: `git_hashes` only grows. -/
theorem validateHost_ok {gitHashes gitHashes' : OrderedSet String} {host : ListedHost}
    (hok : args.validateHost w gitHashes host = .ok gitHashes') :
    (∀ x ∈ gitHashes, x ∈ gitHashes') ∧
    (Config.truthy args.drbdVersionOther = true → host.hasOtherVersion = true →
      ∀ other, args.drbdVersionOther = some other →
        fnmatchcase (w.host host.host).info.drbdVersion other = true) ∧
    (host.hasOtherVersion = false → Config.truthy args.drbdVersion = true →
      (w.host host.host).info.drbdGitHash ∈ gitHashes' ∧
      ∀ version, args.drbdVersion = some version →
        fnmatchcase (w.host host.host).info.drbdVersion version = true) := by
  unfold validateHost at hok
  dsimp only at hok
  have hchecked : ∀ expected, args.expectVersion host = some expected →
      fnmatchcase (w.host host.host).info.drbdVersion expected = true := by
    intro expected hexpected
    rw [hexpected] at hok
    dsimp only at hok
    by_contra hmatch
    rw [if_neg hmatch] at hok
    cases hok
  have hhashes : gitHashes' = if (Config.truthy args.drbdVersionOther && host.hasOtherVersion) =
        false ∧ Config.truthy args.drbdVersion then
      gitHashes.add (w.host host.host).info.drbdGitHash else gitHashes := by
    rcases hexpected : args.expectVersion host with _ | expected
    · rw [hexpected] at hok
      exact (Except.ok.inj hok).symm
    · rw [hexpected] at hok
      dsimp only at hok
      rw [if_pos (hchecked expected hexpected)] at hok
      exact (Except.ok.inj hok).symm
  refine ⟨?_, ?_, ?_⟩
  · intro x hx
    rw [hhashes]
    split
    · exact OrderedSet.mem_add.mpr (.inl hx)
    · exact hx
  · intro htruthy hflag other hother
    apply hchecked
    rw [expectVersion, htruthy, hflag]
    exact hother
  · intro hflag htruthy
    constructor
    · rw [hhashes, if_pos ⟨by rw [hflag, Bool.and_false], htruthy⟩]
      exact OrderedSet.mem_add.mpr (.inr rfl)
    · intro version hversion
      apply hchecked
      rw [expectVersion, hflag, Bool.and_false, if_neg Bool.false_ne_true, if_pos htruthy]
      exact hversion

theorem foldlM_validateHost_ok {gitHashes gitHashes' : OrderedSet String} {hosts : List ListedHost}
    (hok : hosts.foldlM (args.validateHost w) gitHashes = .ok gitHashes') :
    (∀ x ∈ gitHashes, x ∈ gitHashes') ∧ ∀ host ∈ hosts,
      (Config.truthy args.drbdVersionOther = true → host.hasOtherVersion = true →
        ∀ other, args.drbdVersionOther = some other →
          fnmatchcase (w.host host.host).info.drbdVersion other = true) ∧
      (host.hasOtherVersion = false → Config.truthy args.drbdVersion = true →
        (w.host host.host).info.drbdGitHash ∈ gitHashes' ∧
        ∀ version, args.drbdVersion = some version →
          fnmatchcase (w.host host.host).info.drbdVersion version = true) := by
  induction hosts generalizing gitHashes with
  | nil =>
    obtain rfl := Except.ok.inj hok
    exact ⟨fun _ hx => hx, by simp⟩
  | cons host hosts ih =>
    rw [List.foldlM_cons] at hok
    rcases hhost : args.validateHost w gitHashes host with e | middle
    · rw [hhost] at hok
      cases hok
    · rw [hhost] at hok
      obtain ⟨hgrow, hother, hremaining⟩ := validateHost_ok hhost
      obtain ⟨hgrow', hrest⟩ := ih hok
      refine ⟨fun x hx => hgrow' x (hgrow x hx), fun host' hmem => ?_⟩
      rcases List.mem_cons.mp hmem with rfl | hmem
      · refine ⟨hother, fun hflag htruthy => ?_⟩
        obtain ⟨hhash, hmatch⟩ := hremaining hflag htruthy
        exact ⟨hgrow' _ hhash, hmatch⟩
      · exact hrest host' hmem

theorem mem_unique {s : OrderedSet String} (hs : ¬ 1 < s.length) {a b : String} (ha : a ∈ s)
    (hb : b ∈ s) : a = b := by
  rw [OrderedSet.mem_def] at ha hb
  have hlength : s.items.length ≤ 1 := Nat.le_of_not_lt hs
  rcases hitems : s.items with _ | ⟨x, _ | ⟨y, rest⟩⟩
  · rw [hitems] at ha
    cases ha
  · rw [hitems, List.mem_singleton] at ha hb
    rw [ha, hb]
  · rw [hitems] at hlength
    exact absurd hlength (by simp)

/-- What passes the validation. -/
theorem validate_ok {hosts : List ListedHost} {u : PUnit} (hok : args.validate w hosts = .ok u) :
    (Config.truthy args.drbdVersionOther = true → ∀ host ∈ hosts, host.hasOtherVersion = true →
      ∀ other, args.drbdVersionOther = some other →
        fnmatchcase (w.host host.host).info.drbdVersion other = true) ∧
    (Config.truthy args.drbdVersion = true →
      (∀ host ∈ hosts, host.hasOtherVersion = false → ∀ version, args.drbdVersion = some version →
        fnmatchcase (w.host host.host).info.drbdVersion version = true) ∧
      ∀ host ∈ hosts, ∀ host' ∈ hosts, host.hasOtherVersion = false →
        host'.hasOtherVersion = false →
        (w.host host.host).info.drbdGitHash = (w.host host'.host).info.drbdGitHash) := by
  unfold validate at hok
  rcases hfold : hosts.foldlM (args.validateHost w) OrderedSet.empty with e | gitHashes
  · rw [hfold] at hok
    cases hok
  · rw [hfold] at hok
    have hsize : ¬ 1 < gitHashes.length := by
      intro hlt
      change (if 1 < gitHashes.length then _ else _) = _ at hok
      rw [if_pos hlt] at hok
      cases hok
    obtain ⟨-, hall⟩ := foldlM_validateHost_ok hfold
    refine ⟨fun htruthy host hmem => (hall host hmem).1 htruthy, fun htruthy => ⟨?_, ?_⟩⟩
    · exact fun host hmem hflag => ((hall host hmem).2 hflag htruthy).2
    · intro host hmem host' hmem' hflag hflag'
      exact mem_unique hsize ((hall host hmem).2 hflag htruthy).1
        ((hall host' hmem').2 hflag' htruthy).1

/-! ## What the validation means -/

theorem truthy_iff {o : Option String} : Config.truthy o = true ↔ ∃ s, o = some s ∧ s ≠ "" := by
  cases o with
  | none => simp [Config.truthy]
  | some s => simp [Config.truthy]

theorem setup_returns {hosts : List ListedHost} (hr : Returns args.setup w hosts w') :
    hosts = args.hosts.zipIdx.map (fun p => ⟨p.1, args.isOther p.2⟩) ∧
      (∀ host ∈ hosts, (w'.host host.host).info.drbdVersion ≠ "") ∧
      args.validate w' hosts = .ok ⟨⟩ := by
  obtain ⟨listed, w₁, hadd, hr⟩ := returns_bind.mp hr
  rw [returns_get_bind] at hr
  obtain ⟨_, w₂, hvalidate, hr⟩ := returns_bind.mp hr
  obtain ⟨rfl, rfl⟩ := returns_pure.mp hr
  obtain ⟨hlisted, hne, -⟩ := mapM_addHost_returns hadd
  rw [Returns, exec_liftExcept] at hvalidate
  obtain ⟨hok, rfl⟩ := Prod.mk.inj hvalidate
  refine ⟨hlisted, fun host hmem => ?_, hok⟩
  rw [hlisted] at hmem
  obtain ⟨p, hp, rfl⟩ := List.mem_map.mp hmem
  exact hne p hp

/-- The listed hosts by their index. -/
theorem mem_listed {host : ListedHost} :
    host ∈ args.hosts.zipIdx.map (fun p => (⟨p.1, args.isOther p.2⟩ : ListedHost)) ↔
      ∃ i, ∃ h : i < args.hosts.length, host = ⟨args.hosts[i], args.isOther i⟩ := by
  rw [List.mem_map]
  constructor
  · rintro ⟨⟨h, i⟩, hmem, rfl⟩
    obtain ⟨hi, hget⟩ := List.getElem?_eq_some_iff.mp (List.mem_zipIdx_iff_getElem?.mp hmem)
    refine ⟨i, hi, ?_⟩
    rw [← show args.hosts[i] = h from hget]
  · rintro ⟨i, hi, rfl⟩
    exact ⟨(args.hosts[i], i), List.mem_zipIdx_iff_getElem?.mpr (List.getElem?_eq_getElem hi), rfl⟩

/-- A `setup` that passes the validation got what was asked for exactly when the index names a host
whenever it matters. -/
theorem versions_validated_iff {hosts : List ListedHost} (hr : Returns args.setup w hosts w') :
    args.Met w' hosts ↔ args.Named := by
  obtain ⟨rfl, hversions, hvalidate⟩ := setup_returns hr
  obtain ⟨hother, hversion⟩ := validate_ok hvalidate
  constructor
  · rintro ⟨hmet, hmet'⟩
    constructor
    · intro other hgiven
      obtain ⟨⟨host, hmem, hflag⟩, -⟩ := hmet other hgiven
      obtain ⟨i, hi, rfl⟩ := mem_listed.mp hmem
      obtain ⟨htruthy, hindex⟩ := Bool.and_eq_true_iff.mp hflag
      obtain ⟨other', hother', hne⟩ := truthy_iff.mp htruthy
      rw [hgiven] at hother'
      obtain rfl := Option.some.inj hother'
      exact ⟨hne, i, hi, of_decide_eq_true hindex⟩
    · intro hempty i hi
      -- no version is empty, so no host remains
      by_contra hflag
      have hmem := mem_listed.mpr ⟨i, hi, rfl⟩
      have hmatch := ( hmet' "" hempty).1 _ hmem (by simpa using hflag)
      rw [fnmatchcase_plain (by simp)] at hmatch
      exact hversions _ hmem hmatch
  · rintro ⟨hnamed, hempty⟩
    constructor
    · intro other hgiven
      obtain ⟨hne, i, hi, hindex⟩ := hnamed other hgiven
      have htruthy : Config.truthy args.drbdVersionOther = true := truthy_iff.mpr ⟨other, hgiven, hne⟩
      have hflag : args.isOther i = true := by
        rw [isOther, htruthy, Bool.true_and, decide_eq_true_eq]
        exact hindex
      exact ⟨⟨_, mem_listed.mpr ⟨i, hi, rfl⟩, hflag⟩,
        fun host hmem hflag => hother htruthy host hmem hflag other hgiven⟩
    · intro version hgiven
      by_cases hversionEmpty : version = ""
      · subst hversionEmpty
        have hall : ∀ host ∈ args.hosts.zipIdx.map
            (fun p => (⟨p.1, args.isOther p.2⟩ : ListedHost)), host.hasOtherVersion ≠ false := by
          intro host hmem
          obtain ⟨i, hi, rfl⟩ := mem_listed.mp hmem
          rw [hempty hgiven i hi]
          exact Bool.noConfusion
        exact ⟨fun host hmem hflag => absurd hflag (hall host hmem),
          fun host hmem _ _ hflag => absurd hflag (hall host hmem)⟩
      · obtain ⟨hmatch, hhash⟩ := hversion (truthy_iff.mpr ⟨version, hgiven, hversionEmpty⟩)
        exact ⟨fun host hmem hflag => hmatch host hmem hflag version hgiven, hhash⟩

end VersionArgs

/-- A host that reports version 9.2.11 whenever it is asked. -/
def reporting : World :=
  let w := World.plain 1
  { w with env := { w.env with replies := fun _ => ⟨0, "version: 9.2.11 (api:2)\nGIT-hash: abc\n"⟩ } }

/-- One host, with the version 9.2 expected, and version 9.1 asked for on the host with an index. -/
def compatibilityRun (otherNode : Int) : VersionArgs := ⟨[0], some "9.2.*", some "9.1.*", otherNode⟩

theorem setup_reporting (args : VersionArgs) (hok : (exec args.setup reporting).1.toBool = true) :
    ∃ hosts w', Returns args.setup reporting hosts w' := by
  rcases hexec : exec args.setup reporting with ⟨e | hosts, w'⟩
  · rw [hexec] at hok
    cases hok
  · exact ⟨hosts, w', hexec⟩

/-- One host and one version, which it has. -/
theorem versions_validated_plain :
    ∃ hosts w', Returns (VersionArgs.mk [0] (some "9.2.*") none 0).setup reporting hosts w' ∧
      ((VersionArgs.mk [0] (some "9.2.*") none 0).Met w' hosts ↔
        (VersionArgs.mk [0] (some "9.2.*") none 0).Named) := by
  obtain ⟨hosts, w', hr⟩ := setup_reporting (VersionArgs.mk [0] (some "9.2.*") none 0)
    (by decide +kernel)
  exact ⟨hosts, w', hr, VersionArgs.versions_validated_iff hr⟩

/-- An index that names no host: the validation passes without the other version anywhere. -/
theorem other_version_nowhere :
    ∃ hosts w', Returns (compatibilityRun 1).setup reporting hosts w' ∧
      ¬ (compatibilityRun 1).Met w' hosts := by
  obtain ⟨hosts, w', hr⟩ := setup_reporting (compatibilityRun 1) (by decide +kernel)
  refine ⟨hosts, w', hr, ?_⟩
  obtain ⟨rfl, -, -⟩ := VersionArgs.setup_returns hr
  rintro ⟨hother, -⟩
  obtain ⟨⟨host, hmem, hflag⟩, -⟩ := hother "9.1.*" rfl
  obtain ⟨i, hi, rfl⟩ := VersionArgs.mem_listed.mp hmem
  obtain rfl : i = 0 := Nat.lt_one_iff.mp hi
  have hindex : (compatibilityRun 1).isOther 0 = false := by decide
  exact Bool.false_ne_true (hindex.symm.trans hflag)

end DrbdTests
