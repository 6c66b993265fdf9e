import DrbdTests.Cluster.Operations

/-!
# Config uploads that fail

`Node.update_config` clears `config_changed`, generates the config, writes a local copy of it and
uploads it. `Node.updateConfigCopying` has the local copy, which `Node.updateConfig` leaves out, as
a parameter that may raise.

A later `Node.run` uploads the config when the flag is set (`uploadsFirst_iff`). The flag is cleared
before anything can fail, so no failed upload is made up for (`upload_retried_iff`).
-/

namespace DrbdTests

open Stateful

/-- Writing the local copy of a config. -/
abbrev WriteCopy := World → NodeId → String → Except PyError PUnit

/-- The upload of a config. -/
def Node.uploadRequest (w : World) (n : NodeId) (config : String) : Request :=
  .command (w.node n).host ["bash", "-c", "cat > " ++ Node.drbdConfigFilePath w n] (some config)
    (.upload n)

/-- `update_config`, with the local copy. -/
def Node.updateConfigCopying (copy : WriteCopy) (n : NodeId) : Py PUnit := do
  let w ← get
  when (w.node n).configChanged do
    modify fun w => w.setFlag n false
    let config ← Py.liftExcept (Node.config w n)
    Py.liftExcept (copy w n config)
    Host.act (w.node n).host ["bash", "-c", "cat > " ++ Node.drbdConfigFilePath w n] (some config)
      (.upload n)

/-- `Node.run`, with the local copy. -/
def Node.runCopying (copy : WriteCopy) (catching : Bool) (n : NodeId) (cmd : List String)
    (stdin : Option String) : Py String := do
  Node.updateConfigCopying copy n
  let w ← get
  Host.runWith catching (w.node n).host cmd stdin .none

/-- A local copy that can always be written makes no difference. -/
theorem updateConfigCopying_ok (n : NodeId) :
    Node.updateConfigCopying (fun _ _ _ => .ok ⟨⟩) n = Node.updateConfig n := by
  unfold Node.updateConfigCopying Node.updateConfig
  simp only [Py.liftExcept, pure_bind]

/-- `Node.run` uploads the current config before it runs its command, or raises. -/
def UploadsFirst (copy : WriteCopy) (w : World) (n : NodeId) : Prop :=
  ∀ catching cmd stdin, ∃ new,
    (exec (Node.runCopying copy catching n cmd stdin) w).2.requests = new ++ w.requests ∧
      (new = [] ∨ ∃ config, Node.config w n = .ok config ∧
        (new = [(Node.uploadRequest w n config, false)] ∨
          ∃ ok, new = [(.command (w.node n).host cmd stdin .none, ok),
            (Node.uploadRequest w n config, true)]))

/-- If the call raises, every later `Node.run` first uploads what is then the config, as long as
nothing else has set or cleared the flag. And if the flag is clear, the upload succeeded. -/
def UploadRetried (copy : WriteCopy) (w : World) (n : NodeId) : Prop :=
  let call := exec (Node.updateConfigCopying copy n) w
  ((∃ e, call.1 = .error e) → ∀ copy' w',
    (w'.node n).configChanged = (call.2.node n).configChanged → UploadsFirst copy' w' n) ∧
  ((call.2.node n).configChanged = false → ∃ config, Node.config w n = .ok config ∧
    call.2.requests = (Node.uploadRequest w n config, true) :: w.requests)

/-- Nothing fails: the config can be generated, the copy can be written, and the reply to the
upload is good. -/
def UploadSucceeds (copy : WriteCopy) (w : World) (n : NodeId) : Prop :=
  ∃ config, Node.config w n = .ok config ∧ (copy w n config).toBool ∧
    (w.env.replies w.requests.length).returncode = 0

/-! ## How the calls end -/

variable {copy : WriteCopy} {w : World} {n : NodeId}

/-- The three ways in which an update that is due ends. -/
theorem updateConfigCopying_cases (copy : WriteCopy) (hflag : (w.node n).configChanged = true) :
    (∃ e, exec (Node.updateConfigCopying copy n) w = (.error e, w.setFlag n false) ∧
      ¬ UploadSucceeds copy w n) ∨
    ∃ config, Node.config w n = .ok config ∧
      ((∃ e, exec (Node.updateConfigCopying copy n) w = (.error e, { w.setFlag n false with
          requests := (Node.uploadRequest w n config, false) :: w.requests }) ∧
          ¬ UploadSucceeds copy w n) ∨
        (exec (Node.updateConfigCopying copy n) w = (.ok ⟨⟩, { w.setFlag n false with
          requests := (Node.uploadRequest w n config, true) :: w.requests }) ∧
          UploadSucceeds copy w n)) := by
  have hstart : exec (Node.updateConfigCopying copy n) w = exec (do
      let config ← Py.liftExcept (Node.config w n)
      Py.liftExcept (copy w n config)
      Host.act (w.node n).host ["bash", "-c", "cat > " ++ Node.drbdConfigFilePath w n]
        (some config) (.upload n)) (w.setFlag n false) := by
    unfold Node.updateConfigCopying
    rw [exec_get_bind, hflag]
    exact exec_bind_of_ok (exec_modify _ w)
  rw [hstart]
  rcases hconfig : Node.config w n with e | config
  · refine .inl ⟨e, rfl, ?_⟩
    rintro ⟨config, hok, -⟩
    rw [hconfig] at hok
    cases hok
  rw [exec_bind_of_ok (exec_liftExcept _ _)]
  rcases hcopy : copy w n config with e | u
  · refine .inl ⟨e, rfl, ?_⟩
    rintro ⟨config', hok, hwritten, -⟩
    rw [hconfig] at hok
    obtain rfl := Except.ok.inj hok
    rw [hcopy] at hwritten
    cases hwritten
  rw [exec_bind_of_ok (exec_liftExcept _ _)]
  refine .inr ⟨config, rfl, ?_⟩
  unfold Host.act Host.runWith
  rw [bind_assoc, exec_bind_of_ok (exec_request _ _)]
  have hreplies : (w.setFlag n false).env.replies (w.setFlag n false).requests.length =
      w.env.replies w.requests.length := rfl
  rw [hreplies]
  by_cases hcode : (w.env.replies w.requests.length).returncode = 0
  · right
    rw [if_neg (by simp [hcode]), decide_eq_true hcode]
    exact ⟨rfl, config, hconfig, by rw [hcopy]; rfl, hcode⟩
  · left
    rw [if_pos ⟨hcode, by simp⟩, decide_eq_false hcode]
    refine ⟨_, rfl, ?_⟩
    rintro ⟨-, -, -, hok⟩
    exact hcode hok

theorem flag_cleared (copy : WriteCopy) (hflag : (w.node n).configChanged = true) :
    ((exec (Node.updateConfigCopying copy n) w).2.node n).configChanged = false := by
  have hset : ((w.setFlag n false).node n).configChanged = false := by simp [World.setFlag]
  rcases updateConfigCopying_cases copy hflag with ⟨e, hexec, -⟩ | ⟨config, -, ⟨e, hexec, -⟩ | ⟨hexec, -⟩⟩
  · rw [hexec]
    exact hset
  · rw [hexec]
    exact hset
  · rw [hexec]
    exact hset

/-- The flag is what makes `Node.run` upload the config. -/
theorem uploadsFirst_iff : UploadsFirst copy w n ↔ (w.node n).configChanged = true := by
  constructor
  · intro h
    by_contra hflag
    have hflag : (w.node n).configChanged = false := by simpa using hflag
    -- without the flag the command is the only request
    obtain ⟨new, hnew, hcases⟩ := h true [] none
    have hexec : (exec (Node.runCopying copy true n [] none) w).2.requests =
        (exec (Host.runWith true (w.node n).host [] none .none) w).2.requests := by
      unfold Node.runCopying Node.updateConfigCopying
      rw [bind_assoc, exec_get_bind, hflag]
      rfl
    obtain ⟨ok, hrun⟩ := exec_runWith true (w.node n).host [] none .none w
    rw [hexec, hrun] at hnew
    have hone : new = [(.command (w.node n).host [] none .none, ok)] :=
      (List.append_cancel_right (show [_] ++ w.requests = new ++ w.requests from hnew)).symm
    rw [hone] at hcases
    rcases hcases with hnil | ⟨config, -, hupload | ⟨ok', hboth⟩⟩
    · cases hnil
    · cases hupload
    · cases hboth
  · intro hflag catching cmd stdin
    unfold Node.runCopying
    rcases updateConfigCopying_cases copy hflag with
      ⟨e, hexec, -⟩ | ⟨config, hconfig, ⟨e, hexec, -⟩ | ⟨hexec, -⟩⟩
    · rw [exec_bind_of_error hexec]
      exact ⟨[], rfl, .inl rfl⟩
    · rw [exec_bind_of_error hexec]
      exact ⟨_, rfl, .inr ⟨config, hconfig, .inl rfl⟩⟩
    · rw [exec_bind_of_ok hexec, exec_get_bind]
      have hhost : ((w.setFlag n false).node n).host = (w.node n).host := by simp [World.setFlag]
      obtain ⟨ok, hrun⟩ := exec_runWith catching (w.node n).host cmd stdin .none
        { w.setFlag n false with
          requests := (Node.uploadRequest w n config, true) :: w.requests }
      refine ⟨[(.command (w.node n).host cmd stdin .none, ok), (Node.uploadRequest w n config, true)],
        ?_, .inr ⟨config, hconfig, .inr ⟨ok, rfl⟩⟩⟩
      dsimp only
      rw [hhost, hrun]
      rfl

/-- A failed update of the config is not made up for: the flag is right exactly when nothing
failed. -/
theorem upload_retried_iff (hflag : (w.node n).configChanged = true) :
    UploadRetried copy w n ↔ UploadSucceeds copy w n := by
  have hcleared := flag_cleared copy hflag
  constructor
  · rintro ⟨-, honly⟩
    obtain ⟨config, -, hrequests⟩ := honly hcleared
    rcases updateConfigCopying_cases copy hflag with
      ⟨e, hexec, -⟩ | ⟨config', -, ⟨e, hexec, -⟩ | ⟨-, hsucceeds⟩⟩
    · rw [hexec] at hrequests
      exact absurd hrequests.symm (List.cons_ne_self _ _)
    · rw [hexec] at hrequests
      cases congrArg (fun l => l.head?.map Prod.snd) hrequests
    · exact hsucceeds
  · intro hsucceeds
    rcases updateConfigCopying_cases copy hflag with
      ⟨e, -, hfails⟩ | ⟨config, hconfig, ⟨e, -, hfails⟩ | ⟨hexec, -⟩⟩
    · exact absurd hsucceeds hfails
    · exact absurd hsucceeds hfails
    · constructor
      · rintro ⟨e, he⟩
        rw [hexec] at he
        cases he
      · intro _
        rw [hexec]
        exact ⟨config, hconfig, rfl⟩

/-- A resource with one node, on a host where every command ends with the code. -/
def oneNode (returncode : Nat) : World :=
  let w := Op.afterAll (World.plain 1) [.createResource none]
  { w with env := { w.env with replies := fun _ => ⟨returncode, ""⟩ } }

theorem upload_retried_one :
    UploadRetried (fun _ _ _ => .ok ⟨⟩) (oneNode 0) 0 ↔
      UploadSucceeds (fun _ _ _ => .ok ⟨⟩) (oneNode 0) 0 :=
  upload_retried_iff (by decide +kernel)

/-- After a failed upload the flag is clear, so that the config is not uploaded. -/
theorem failed_upload_not_retried :
    let failed := exec (Node.updateConfigCopying (fun _ _ _ => .ok ⟨⟩) 0) (oneNode 1)
    ((oneNode 1).node 0).configChanged = true ∧
      failed.1 = .error (.calledProcessError 1) ∧
      (failed.2.node 0).configChanged = false ∧
      ((exec (Node.runCopying (fun _ _ _ => .ok ⟨⟩) false 0 ["true"] none) failed.2).2.requests.map
        fun r => r.1.effect) = [.none, .upload 0] := by
  decide +kernel

end DrbdTests
