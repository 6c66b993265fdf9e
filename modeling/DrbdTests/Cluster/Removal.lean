import DrbdTests.Cluster.Operations
import DrbdTests.Cluster.Replies

/-!
# Removing disks again

`Node.remove_disks` removes the devices of all volumes in order and forgets the volumes when the
last one is gone. A removal that fails makes the call raise with `disks` as it was, so that a second
call starts over, with the device that was removed first (`remove_disks_resumable_iff`).
-/

namespace DrbdTests

open Stateful

/-- A command that removes a device. -/
structure RemovalStep where
  host : HostId
  cmd : List String
  object : ObjectId

def RemovalStep.request (s : RemovalStep) : Request := .command s.host s.cmd none (.remove s.object)

def RemovalStep.run (s : RemovalStep) : Py PUnit := Host.act s.host s.cmd none (.remove s.object)

/-- The commands of `remove`, from the top layer down. -/
def DiskVolume.removalSteps : DiskVolume → List RemovalStep
  | backing object host volume => [⟨host, volume.removeCommand, object⟩]
  | deviceMapperTarget object host _ deviceName backingVolume =>
    ⟨host, ["dmsetup", "remove", deviceName], object⟩ :: backingVolume.removalSteps

/-- The commands for the disk and the metadata of a volume. -/
def Volume.removalSteps (v : Volume) : List RemovalStep :=
  (v.diskVolume.toList ++ v.metaVolume.toList).flatMap DiskVolume.removalSteps

/-- The commands of `Node.remove_disks`. -/
def World.removalSteps (w : World) (n : NodeId) : List RemovalStep :=
  (w.node n).disks.flatMap Volume.removalSteps

/-- The requests between two states, in order. -/
def World.since (w w' : World) : List (Request × Bool) :=
  (w'.requests.take (w'.requests.length - w.requests.length)).reverse

/-- The device that a request is to remove. -/
def Request.removes (r : Request) : Option ObjectId :=
  match r.effect with
  | .remove object => some object
  | _ => none

/-- The devices that commands were to remove. -/
def attempted (requests : List (Request × Bool)) : List ObjectId :=
  requests.filterMap fun r => r.1.removes

/-- The devices that were removed. -/
def removed (requests : List (Request × Bool)) : List ObjectId :=
  attempted (requests.filter Prod.snd)

/-- After a failed call, a second one attempts to remove only what has not been removed yet. If it
succeeds, every device of the volumes has been removed once and there are no disks. -/
def Resumable (w : World) (n : NodeId) : Prop :=
  let first := exec (Node.removeDisks n) w
  let second := exec (Node.removeDisks n) first.2
  first.1.toBool = false →
    (∀ object ∈ attempted (first.2.since second.2), object ∉ removed (w.since first.2)) ∧
    (second.1.toBool = true →
      removed (w.since first.2) ++ removed (first.2.since second.2) =
        (w.removalSteps n).map RemovalStep.object ∧
      (second.2.node n).disks = [])

/-- All removals of the first call succeed, or the very first one fails. -/
def RemovalClean (w : World) (n : NodeId) : Prop :=
  w.RepliesGood (w.removalSteps n).length ∨ (w.env.replies w.requests.length).returncode ≠ 0

/-! ## The removals one by one -/

theorem remove_eq_forM (d : DiskVolume) : d.remove = d.removalSteps.forM RemovalStep.run := by
  induction d with
  | backing object host volume => exact (bind_pure_unit).symm
  | deviceMapperTarget object host dmType deviceName backingVolume ih =>
    rw [DiskVolume.remove, ih]
    rfl

theorem forM_append {α : Type} (f : α → Py PUnit) (xs ys : List α) :
    (xs ++ ys).forM f = (do xs.forM f; ys.forM f) := by
  induction xs with
  | nil => exact (pure_bind _ _).symm
  | cons x xs ih =>
    change (do f x; (xs ++ ys).forM f) = (do (do f x; xs.forM f); ys.forM f)
    rw [ih, bind_assoc]

theorem forM_flatMap {α β : Type} (f : β → Py PUnit) (g : α → List β) (xs : List α) :
    (xs.flatMap g).forM f = xs.forM fun x => (g x).forM f := by
  induction xs with
  | nil => rfl
  | cons x xs ih =>
    rw [List.flatMap_cons, forM_append, ih]
    rfl

theorem removeIfPresent_eq_forM (d : Option DiskVolume) :
    removeIfPresent d = (d.toList.flatMap DiskVolume.removalSteps).forM RemovalStep.run := by
  cases d with
  | none => rfl
  | some d =>
    change d.remove = _
    rw [remove_eq_forM, Option.toList_some, List.flatMap_singleton]

theorem removeDisks_eq_forM (n : NodeId) : Node.removeDisks n = (do
    let w ← get
    (w.removalSteps n).forM RemovalStep.run
    modify fun w => w.clearDisks n) := by
  have hvolume : Volume.removeDisks = fun v => v.removalSteps.forM RemovalStep.run := by
    funext v
    rw [Volume.removeDisks, removeIfPresent_eq_forM, removeIfPresent_eq_forM, ← forM_append,
      ← List.flatMap_append]
    rfl
  unfold Node.removeDisks World.removalSteps
  simp only [forM_flatMap, hvolume]

/-! ## How a call ends -/

variable {w w' : World} {n : NodeId}

theorem exec_step_ok (s : RemovalStep)
    (h : (w.env.replies w.requests.length).returncode = 0) :
    exec s.run w = (.ok ⟨⟩, { w with requests := (s.request, true) :: w.requests }) := by
  unfold RemovalStep.run Host.act
  rw [exec_bind_of_ok (exec_runWith_of_ok h)]
  rfl

theorem exec_step_error (s : RemovalStep)
    (h : (w.env.replies w.requests.length).returncode ≠ 0) :
    ∃ e, exec s.run w = (.error e, { w with requests := (s.request, false) :: w.requests }) := by
  unfold RemovalStep.run Host.act
  rw [exec_bind_of_error (exec_runWith_of_failed h)]
  exact ⟨_, rfl⟩

/-- Successful requests for the steps, the latest first. -/
def succeeded (steps : List RemovalStep) : List (Request × Bool) :=
  (steps.map fun s => (s.request, true)).reverse

theorem repliesGood_succ {count : Nat} {r : Request × Bool}
    (hreply : (w.env.replies w.requests.length).returncode = 0)
    (h : World.RepliesGood { w with requests := r :: w.requests } count) :
    w.RepliesGood (count + 1) := by
  intro k hk
  cases k with
  | zero => exact hreply
  | succ k =>
    have hk := h k (Nat.lt_of_succ_lt_succ hk)
    rw [List.length_cons, Nat.add_right_comm] at hk
    exact hk

/-- The steps are done up to the first bad reply. -/
theorem exec_steps (steps : List RemovalStep) (w : World) :
    (w.RepliesGood steps.length ∧ exec (steps.forM RemovalStep.run) w =
      (.ok ⟨⟩, { w with requests := succeeded steps ++ w.requests })) ∨
    ∃ done s rest e, steps = done ++ s :: rest ∧ w.RepliesGood done.length ∧
      (w.env.replies (w.requests.length + done.length)).returncode ≠ 0 ∧
      exec (steps.forM RemovalStep.run) w = (.error e,
        { w with requests := (s.request, false) :: (succeeded done ++ w.requests) }) := by
  induction steps generalizing w with
  | nil => exact .inl ⟨fun k hk => absurd hk (Nat.not_lt_zero k), rfl⟩
  | cons s steps ih =>
    change (_ ∧ exec (do s.run; steps.forM RemovalStep.run) w = _) ∨ ∃ done s' rest e, _ ∧ _ ∧ _ ∧
      exec (do s.run; steps.forM RemovalStep.run) w = _
    by_cases hreply : (w.env.replies w.requests.length).returncode = 0
    · have hstep := exec_step_ok s hreply
      rw [exec_bind_of_ok hstep]
      have hnext : succeeded (s :: steps) = succeeded steps ++ [(s.request, true)] := by
        simp [succeeded]
      rcases ih { w with requests := (s.request, true) :: w.requests } with
        ⟨hgood, hexec⟩ | ⟨done, s', rest, e, hsteps, hgood, hbad, hexec⟩
      · left
        refine ⟨repliesGood_succ hreply hgood, ?_⟩
        rw [hexec, hnext, List.append_assoc]
        rfl
      · right
        refine ⟨s :: done, s', rest, e, by rw [hsteps]; rfl, repliesGood_succ hreply hgood, ?_, ?_⟩
        · rw [List.length_cons, Nat.add_right_comm] at hbad
          exact hbad
        · have hdone : succeeded (s :: done) = succeeded done ++ [(s.request, true)] := by
            simp [succeeded]
          rw [hexec, hdone, List.append_assoc]
          rfl
    · right
      obtain ⟨e, hstep⟩ := exec_step_error s hreply
      exact ⟨[], s, steps, e, rfl, fun k hk => absurd hk (Nat.not_lt_zero k), hreply,
        exec_bind_of_error hstep⟩

theorem since_append (w : World) (new : List (Request × Bool)) (w' : World)
    (h : w'.requests = new ++ w.requests) : w.since w' = new.reverse := by
  unfold World.since
  rw [h, List.length_append, Nat.add_sub_cancel, List.take_left]

theorem attempted_succeeded (steps : List RemovalStep) :
    attempted (succeeded steps).reverse = steps.map RemovalStep.object := by
  unfold attempted succeeded
  rw [List.reverse_reverse, List.filterMap_map]
  exact congrFun (List.filterMap_eq_map' (f := RemovalStep.object)) steps

theorem removed_succeeded (steps : List RemovalStep) :
    removed (succeeded steps).reverse = steps.map RemovalStep.object := by
  have hall : (succeeded steps).reverse.filter Prod.snd = (succeeded steps).reverse := by
    apply List.filter_eq_self.mpr
    intro r hr
    unfold succeeded at hr
    rw [List.reverse_reverse] at hr
    obtain ⟨s, -, rfl⟩ := List.mem_map.mp hr
    rfl
  rw [removed, hall, attempted_succeeded]

/-- What a call of `remove_disks` does: everything, or everything before a bad reply. -/
theorem removeDisks_cases (w : World) (n : NodeId) :
    (w.RepliesGood (w.removalSteps n).length ∧
      (exec (Node.removeDisks n) w).1.toBool = true ∧
      attempted (w.since (exec (Node.removeDisks n) w).2) =
        (w.removalSteps n).map RemovalStep.object ∧
      removed (w.since (exec (Node.removeDisks n) w).2) =
        (w.removalSteps n).map RemovalStep.object ∧
      ((exec (Node.removeDisks n) w).2.node n).disks = []) ∨
    ∃ done s rest, w.removalSteps n = done ++ s :: rest ∧ w.RepliesGood done.length ∧
      (w.env.replies (w.requests.length + done.length)).returncode ≠ 0 ∧
      (exec (Node.removeDisks n) w).1.toBool = false ∧
      attempted (w.since (exec (Node.removeDisks n) w).2) =
        (done ++ [s]).map RemovalStep.object ∧
      removed (w.since (exec (Node.removeDisks n) w).2) = done.map RemovalStep.object ∧
      (exec (Node.removeDisks n) w).2.removalSteps n = w.removalSteps n := by
  rw [removeDisks_eq_forM, exec_get_bind]
  rcases exec_steps (w.removalSteps n) w with
    ⟨hgood, hexec⟩ | ⟨done, s, rest, e, hsteps, hgood, hbad, hexec⟩
  · left
    rw [exec_bind_of_ok hexec, exec_modify]
    have hsince := since_append w (succeeded (w.removalSteps n))
      (World.clearDisks { w with requests := succeeded (w.removalSteps n) ++ w.requests } n) rfl
    refine ⟨hgood, rfl, ?_, ?_, ?_⟩
    · rw [hsince, attempted_succeeded]
    · rw [hsince, removed_succeeded]
    · simp [World.clearDisks]
  · right
    rw [exec_bind_of_error hexec]
    have hsince := since_append w ((s.request, false) :: succeeded done)
      { w with requests := (s.request, false) :: (succeeded done ++ w.requests) } rfl
    refine ⟨done, s, rest, hsteps, hgood, hbad, rfl, ?_, ?_, rfl⟩
    · rw [hsince, List.reverse_cons, attempted, List.filterMap_append, ← attempted,
        attempted_succeeded, List.map_append]
      rfl
    · have hfilter : ((s.request, false) :: succeeded done).reverse.filter Prod.snd =
          (succeeded done).reverse.filter Prod.snd := by
        rw [List.reverse_cons, List.filter_append]
        exact List.append_nil _
      rw [hsince, removed, hfilter, ← removed, removed_succeeded]

/-- Removing disks can be resumed exactly when nothing had been removed before the first failure. -/
theorem remove_disks_resumable_iff (w : World) (n : NodeId) :
    Resumable w n ↔ RemovalClean w n := by
  constructor
  · intro h
    rcases removeDisks_cases w n with
      ⟨hgood, -⟩ | ⟨done, s, rest, hsteps, -, hbad, hfails, -, hremoved, hsame⟩
    · exact .inl hgood
    · right
      rcases done with _ | ⟨t, done⟩
      · exact hbad
      · -- the second call starts with the device that is already gone
        exfalso
        obtain ⟨hattempts, -⟩ := h hfails
        rw [hremoved] at hattempts
        have hfirst : t.object ∈ attempted ((exec (Node.removeDisks n) w).2.since
            (exec (Node.removeDisks n) (exec (Node.removeDisks n) w).2).2) := by
          rcases removeDisks_cases (exec (Node.removeDisks n) w).2 n with
            ⟨-, -, hall, -⟩ | ⟨done', s', rest', hsteps', -, -, -, hpart, -⟩
          · rw [hall, hsame, hsteps]
            exact List.mem_cons_self
          · rw [hpart]
            rw [hsame, hsteps] at hsteps'
            rcases done' with _ | ⟨t', done'⟩
            · rw [(List.cons.inj hsteps').1]
              exact List.mem_cons_self
            · rw [(List.cons.inj hsteps').1]
              exact List.mem_cons_self
        exact hattempts t.object hfirst List.mem_cons_self
  · intro hclean hfails
    rcases removeDisks_cases w n with
      ⟨-, hreturns, -⟩ | ⟨done, s, rest, hsteps, hgood, hbad, -, -, hremoved, hsame⟩
    · exact absurd (hfails.symm.trans hreturns) Bool.false_ne_true
    · have hdone : done = [] := by
        rcases hclean with hgood | hfirst
        · refine absurd (hgood done.length ?_) hbad
          rw [hsteps, List.length_append, List.length_cons]
          omega
        · apply List.eq_nil_of_length_eq_zero
          by_contra hne
          exact hfirst (hgood 0 (Nat.pos_of_ne_zero hne))
      subst hdone
      rw [hremoved]
      refine ⟨fun object _ hmem => (List.not_mem_nil hmem), fun hreturns => ?_⟩
      rcases removeDisks_cases (exec (Node.removeDisks n) w).2 n with
        ⟨-, -, -, hall, hdisks⟩ | ⟨-, -, -, -, -, -, hfails', -⟩
      · rw [hall, hsame]
        exact ⟨rfl, hdisks⟩
      · exact absurd (hfails'.symm.trans hreturns) Bool.false_ne_true

/-- One node with two volumes on plain disks, where the second removal of a device fails. -/
def secondRemovalFails : World :=
  let w := Op.afterAll (World.plain 1) [.createResource none,
    .nodeAddDisk 0 0 (some "1G") .default, .nodeAddDisk 0 1 (some "1G") .default]
  { w with env := { w.env with replies := fun k => ⟨if k = w.requests.length + 1 then 5 else 0, ""⟩ } }

/-- The second call removes the first device again. -/
theorem device_removed_twice :
    let w := secondRemovalFails
    let first := exec (Node.removeDisks 0) w
    let second := exec (Node.removeDisks 0) first.2
    first.1 = .error (.calledProcessError 5) ∧ removed (w.since first.2) = [1] ∧
      attempted (first.2.since second.2) = [1, 3] := by
  decide +kernel

end DrbdTests
