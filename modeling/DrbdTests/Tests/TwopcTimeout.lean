import DrbdTests.Cluster.Operations

/-!
# Waiting for a two-phase commit

`wait_twopc_started_on_all` polls all nodes in one pass after the other. Of the values in a pass it
keeps the last two ids, so it takes a node that has not started yet for a different transaction if
it comes behind one that has, and does not see it if it comes first. So the wait does what is meant
exactly when the first pass with an id is not a pass in which the transaction is only starting:
`wait_twopc_iff`.
-/

namespace DrbdTests.TwopcTimeout

open Stateful

/-- `state_twopc_regex` -/
def stateTwopc (text : String) : Option Nat := Text.findInt "Executing tid: ".toList text.toList

/-- `twopc_tid` -/
def twopcTid (self : NodeId) : Py (Option Nat) := do
  let w ← get
  let text ← Node.run self ["cat", "/sys/kernel/debug/drbd/resources/" ++
    (w.resource (w.node self).resource).name ++ "/state_twopc"]
  return stateTwopc text

/-- The pass over the nodes, from `tid` and `p_tid` on. -/
def pollAll : List NodeId → Option Nat → Option Nat → Py (Option Nat)
  | [], tid, _ => return tid
  | node :: nodes, tid, pTid => do
    let pTid := if tid ≠ none then tid else pTid
    let tid ← twopcTid node
    if pTid ≠ none ∧ pTid ≠ tid then throw .assertionError
    pollAll nodes tid pTid

/-- `wait_twopc_started_on_all`, for a number of passes. The result is `none` when it is still
polling then. -/
def waitTwopcStartedOnAll (res : ResourceId) : Nat → Py (Option Nat)
  | 0 => return none
  | passes + 1 => do
    let w ← get
    match ← pollAll (w.members res) none none with
    | some tid => return some tid
    | none => waitTwopcStartedOnAll res passes

/-! ## The values of one pass -/

/-- `pollAll` on the values that the polls return. -/
def judge : List (Option Nat) → Option Nat → Option Nat → Except PyError (Option Nat)
  | [], tid, _ => .ok tid
  | id :: ids, tid, pTid =>
    let pTid := if tid ≠ none then tid else pTid
    if pTid ≠ none ∧ pTid ≠ id then .error .assertionError else judge ids id pTid

/-- After an id, all others have to be the same. -/
theorem judge_some {ids : List (Option Nat)} {tid : Nat} {pTid result : Option Nat}
    (h : judge ids (some tid) pTid = .ok result) :
    result = some tid ∧ ∀ id ∈ ids, id = some tid := by
  induction ids generalizing pTid with
  | nil => exact ⟨(Except.ok.inj h).symm, by simp⟩
  | cons id ids ih =>
    rw [judge, if_pos (Option.some_ne_none tid)] at h
    split at h
    · cases h
    · rename_i hsame
      obtain rfl : some tid = id := by
        by_contra hne
        exact hsame ⟨Option.some_ne_none tid, hne⟩
      obtain ⟨hresult, hids⟩ := ih h
      exact ⟨hresult, List.forall_mem_cons.mpr ⟨rfl, hids⟩⟩

/-- A pass that is not aborted has met one id at most, which it returns. -/
theorem judge_ok {ids : List (Option Nat)} {result : Option Nat}
    (h : judge ids none none = .ok result) :
    result ∈ none :: ids ∧ ∀ id ∈ ids, id = none ∨ id = result := by
  induction ids with
  | nil =>
    obtain rfl := Except.ok.inj h
    exact ⟨List.mem_cons_self, by simp⟩
  | cons id ids ih =>
    change judge ids id none = .ok result at h
    cases id with
    | none =>
      obtain ⟨hresult, hids⟩ := ih h
      refine ⟨?_, List.forall_mem_cons.mpr ⟨.inl rfl, hids⟩⟩
      rcases List.mem_cons.mp hresult with rfl | hmem
      · exact List.mem_cons_self
      · exact List.mem_cons_of_mem _ (List.mem_cons_of_mem _ hmem)
    | some tid =>
      obtain ⟨rfl, hids⟩ := judge_some h
      refine ⟨List.mem_cons_of_mem _ List.mem_cons_self, ?_⟩
      intro id hid
      rcases List.mem_cons.mp hid with rfl | hid
      · exact .inr rfl
      · exact .inr (hids id hid)

theorem judge_eq_none_iff {ids : List (Option Nat)} :
    judge ids none none = .ok none ↔ ∀ id ∈ ids, id = none := by
  constructor
  · intro h id hid
    exact or_self_iff.mp ((judge_ok h).2 id hid)
  · intro h
    induction ids with
    | nil => rfl
    | cons id ids ih =>
      obtain ⟨rfl, hids⟩ := List.forall_mem_cons.mp h
      exact ih hids

theorem pollAll_eq {nodes : List NodeId} {ids : List (Option Nat)} {w w' : World}
    (h : Returns (nodes.mapM twopcTid) w ids w') (tid pTid : Option Nat) :
    (exec (pollAll nodes tid pTid) w).1 = judge ids tid pTid ∧
    ((exec (pollAll nodes tid pTid) w).1.toBool = true →
      (exec (pollAll nodes tid pTid) w).2 = w') := by
  induction nodes generalizing ids w tid pTid with
  | nil =>
    rw [List.mapM_nil, returns_pure] at h
    obtain ⟨rfl, rfl⟩ := h
    exact ⟨rfl, fun _ => rfl⟩
  | cons node nodes ih =>
    rw [List.mapM_cons] at h
    obtain ⟨id, w₁, hid, h⟩ := returns_bind.mp h
    obtain ⟨rest, w₂, hrest, h⟩ := returns_bind.mp h
    obtain ⟨rfl, rfl⟩ := returns_pure.mp h
    rw [pollAll, exec_bind_of_ok hid, judge]
    dsimp only
    generalize (if tid ≠ none then tid else pTid) = held
    by_cases hdiffers : held ≠ none ∧ held ≠ id
    · rw [if_pos hdiffers, if_pos hdiffers]
      exact ⟨rfl, fun h => absurd h Bool.false_ne_true⟩
    · rw [if_neg hdiffers, if_neg hdiffers]
      exact ih hrest id held

/-! ## The passes -/

/-- Successive polls of the nodes return these values, pass by pass. -/
def Polled (w : World) (res : ResourceId) (polls : Nat → List (Option Nat)) : Prop :=
  ∃ states : Nat → World, states 0 = w ∧ ∀ pass,
    Returns ((w.members res).mapM twopcTid) (states pass) (polls pass) (states (pass + 1))

/-- The transaction has started on some nodes only. -/
def Starting (ids : List (Option Nat)) (tid : Nat) : Prop :=
  some tid ∈ ids ∧ none ∈ ids ∧ ∀ id ∈ ids, id = none ∨ id = some tid

/-- The call has not ended when the nodes have been polled for a number of passes. -/
def Polling (w : World) (res : ResourceId) (passes : Nat) : Prop :=
  (exec (waitTwopcStartedOnAll res passes) w).1 = .ok none

/-- An id is only returned when all nodes report it in one pass, and the polling goes on while the
transaction is starting. -/
structure Waits (w : World) (res : ResourceId) (polls : Nat → List (Option Nat)) : Prop where
  returned : ∀ passes tid, (exec (waitTwopcStartedOnAll res passes) w).1 = .ok (some tid) →
    ∃ pass < passes, polls pass ≠ [] ∧ ∀ id ∈ polls pass, id = some tid
  goesOn : ∀ pass tid, Polling w res pass → Starting (polls pass) tid → Polling w res (pass + 1)

theorem keepingGraph_twopcTid (self : NodeId) : keepingGraph.Holds (twopcTid self) := by
  apply Frame.holds_get_bind
  intro w
  exact Frame.holds_bind ((keepingGraph_commands.node self).runWith true false _)
    (fun _ => Frame.holds_pure _) w

theorem members_of_polls {nodes : List NodeId} {ids : List (Option Nat)} {w w' : World}
    (h : Returns (nodes.mapM twopcTid) w ids w') (res : ResourceId) :
    w'.members res = w.members res := by
  induction nodes generalizing ids w with
  | nil =>
    rw [List.mapM_nil, returns_pure] at h
    rw [h.2]
  | cons node nodes ih =>
    rw [List.mapM_cons] at h
    obtain ⟨id, w₁, hid, h⟩ := returns_bind.mp h
    obtain ⟨rest, w₂, hrest, h⟩ := returns_bind.mp h
    obtain ⟨-, rfl⟩ := returns_pure.mp h
    rw [ih hrest, graph_members ((keepingGraph_twopcTid node).rel_of_returns hid)]

/-- How the call ends, from the values that are polled. -/
def ending : (Nat → List (Option Nat)) → Nat → Except PyError (Option Nat)
  | _, 0 => .ok none
  | polls, passes + 1 =>
    match judge (polls 0) none none with
    | .ok none => ending (fun pass => polls (pass + 1)) passes
    | ended => ended

theorem wait_eq {w : World} {res : ResourceId} {polls : Nat → List (Option Nat)}
    (h : Polled w res polls) (passes : Nat) :
    (exec (waitTwopcStartedOnAll res passes) w).1 = ending polls passes := by
  induction passes generalizing w polls with
  | zero => rfl
  | succ passes ih =>
    obtain ⟨states, rfl, hstates⟩ := h
    obtain ⟨hresult, hstate⟩ := pollAll_eq (hstates 0) none none
    rw [waitTwopcStartedOnAll, exec_get_bind, ending, ← hresult]
    rcases hexec : exec (pollAll ((states 0).members res) none none) (states 0) with ⟨e | id, w'⟩
    · rw [exec_bind_of_error hexec]
    · rw [exec_bind_of_ok hexec]
      rw [hexec] at hstate
      obtain rfl : w' = states 1 := hstate rfl
      cases id with
      | some tid => rfl
      | none =>
        have hmembers : (states 1).members res = (states 0).members res :=
          members_of_polls (hstates 0) res
        refine ih ⟨fun pass => states (pass + 1), rfl, fun pass => ?_⟩
        rw [hmembers]
        exact hstates (pass + 1)

/-- The first pass with an id decides. -/
theorem ending_cases (polls : Nat → List (Option Nat)) (passes : Nat) :
    ending polls passes = .ok none ∧ (∀ pass < passes, ∀ id ∈ polls pass, id = none) ∨
    ∃ pass < passes, (∀ earlier < pass, ∀ id ∈ polls earlier, id = none) ∧
      (∃ id ∈ polls pass, id ≠ none) ∧ ending polls passes = judge (polls pass) none none := by
  induction passes generalizing polls with
  | zero => exact .inl ⟨rfl, by simp⟩
  | succ passes ih =>
    by_cases hfirst : ∀ id ∈ polls 0, id = none
    · have hending : ending polls (passes + 1) = ending (fun pass => polls (pass + 1)) passes := by
        rw [ending, judge_eq_none_iff.mpr hfirst]
      rw [hending]
      -- the passes are those after the first one
      have hall : ∀ {passes}, (∀ pass < passes, ∀ id ∈ polls (pass + 1), id = none) →
          ∀ pass < passes + 1, ∀ id ∈ polls pass, id = none := by
        intro passes h pass hpass
        cases pass with
        | zero => exact hfirst
        | succ pass => exact h pass (Nat.lt_of_succ_lt_succ hpass)
      rcases ih fun pass => polls (pass + 1) with ⟨hnone, h⟩ | ⟨pass, hpass, h, hid, hjudge⟩
      · exact .inl ⟨hnone, hall h⟩
      · exact .inr ⟨pass + 1, Nat.succ_lt_succ hpass, hall h, hid, hjudge⟩
    · push Not at hfirst
      refine .inr ⟨0, Nat.succ_pos passes, by simp, hfirst, ?_⟩
      obtain ⟨id, hid, hne⟩ := hfirst
      rw [ending]
      split
      · rename_i hnone
        exact absurd (judge_eq_none_iff.mp hnone id hid) hne
      · rfl

/-! ### Which values are polled -/

/-- The id in a reply. -/
def answer (w : World) (k : Nat) : Option Nat :=
  stateTwopc (String.ofList (Text.strip (w.env.replies k).stdout.toList))

section Replies

variable {w : World} (hgood : ∀ k, (w.env.replies k).returncode = 0)

include hgood

theorem run_returns {self : NodeId} (hconfig : (w.node self).configChanged = false)
    (cmd : List String) (asked : List (Request × Bool)) :
    ∃ r, Returns (Node.run self cmd) { w with requests := asked }
      (String.ofList (Text.strip (w.env.replies asked.length).stdout.toList))
      { w with requests := r :: asked } := by
  have hupdate : Returns (Node.updateConfig self) { w with requests := asked } ⟨⟩
      { w with requests := asked } := by
    apply returns_get_bind.mpr
    rw [hconfig, when_false]
    exact returns_pure.mpr ⟨rfl, rfl⟩
  have hcommand : Returns (Host.runWith false (w.node self).host cmd none .none)
      { w with requests := asked } _ _ := exec_runWith_of_ok (hgood _)
  exact ⟨_, hupdate.bind (returns_get_bind.mpr hcommand)⟩

theorem twopcTid_returns {self : NodeId} (hconfig : (w.node self).configChanged = false)
    (asked : List (Request × Bool)) : ∃ r, Returns (twopcTid self) { w with requests := asked }
      (answer w asked.length) { w with requests := r :: asked } := by
  obtain ⟨r, hrun⟩ := run_returns hgood hconfig ["cat", "/sys/kernel/debug/drbd/resources/" ++
    (w.resource (w.node self).resource).name ++ "/state_twopc"] asked
  exact ⟨r, returns_get_bind.mpr (hrun.bind (returns_pure.mpr ⟨rfl, rfl⟩))⟩

theorem polls_return {nodes : List NodeId} (hconfig : ∀ n ∈ nodes, (w.node n).configChanged = false)
    (asked : List (Request × Bool)) : ∃ asked', asked'.length = asked.length + nodes.length ∧
      Returns (nodes.mapM twopcTid) { w with requests := asked }
        ((List.range' asked.length nodes.length).map (answer w)) { w with requests := asked' } := by
  induction nodes generalizing asked with
  | nil => exact ⟨asked, rfl, returns_pure.mpr ⟨rfl, rfl⟩⟩
  | cons node nodes ih =>
    obtain ⟨hnode, hnodes⟩ := List.forall_mem_cons.mp hconfig
    obtain ⟨r, hfirst⟩ := twopcTid_returns hgood hnode asked
    obtain ⟨asked', hlength, hrest⟩ := ih hnodes (r :: asked)
    refine ⟨asked', by rw [hlength, List.length_cons, List.length_cons]; omega, ?_⟩
    rw [List.mapM_cons]
    exact hfirst.bind (hrest.bind (returns_pure.mpr ⟨rfl, rfl⟩))

/-- When no config is out of date, the replies to the commands are the values in order. -/
theorem polled_of_replies {res : ResourceId}
    (hconfig : ∀ n ∈ w.members res, (w.node n).configChanged = false) :
    Polled w res fun pass => (List.range' (w.requests.length + pass * (w.members res).length)
      (w.members res).length).map (answer w) := by
  let poll : World → World := fun s => (exec ((w.members res).mapM twopcTid) s).2
  have hstates : ∀ pass, ∃ asked, poll^[pass] w = { w with requests := asked } ∧
      asked.length = w.requests.length + pass * (w.members res).length := by
    intro pass
    induction pass with
    | zero => exact ⟨w.requests, rfl, by rw [Nat.zero_mul, Nat.add_zero]⟩
    | succ pass ih =>
      obtain ⟨asked, hstate, hlength⟩ := ih
      obtain ⟨asked', hlength', hreturns⟩ := polls_return hgood hconfig asked
      refine ⟨asked', ?_, by rw [hlength', hlength, Nat.succ_mul, Nat.add_assoc]⟩
      rw [Function.iterate_succ_apply', hstate]
      exact congrArg Prod.snd hreturns
  refine ⟨fun pass => poll^[pass] w, rfl, fun pass => ?_⟩
  obtain ⟨asked, hstate, hlength⟩ := hstates pass
  obtain ⟨asked', -, hreturns⟩ := polls_return hgood hconfig asked
  dsimp only
  rw [Function.iterate_succ_apply', hstate, ← hlength]
  have hnext : poll { w with requests := asked } = { w with requests := asked' } :=
    congrArg Prod.snd hreturns
  rw [hnext]
  exact hreturns

end Replies

/-! ## The result -/

/-- The call waits for all nodes exactly when the transaction is not just starting in the first pass
with an id. -/
theorem wait_twopc_iff {w : World} {res : ResourceId} {polls : Nat → List (Option Nat)}
    (hpolls : Polled w res polls) :
    Waits w res polls ↔ ∀ pass, (∀ earlier < pass, ∀ id ∈ polls earlier, id = none) →
      ∀ tid, ¬ Starting (polls pass) tid := by
  have hpolling : ∀ passes, Polling w res passes ↔
      ∀ pass < passes, ∀ id ∈ polls pass, id = none := by
    intro passes
    rw [Polling, wait_eq hpolls]
    rcases ending_cases polls passes with ⟨hnone, h⟩ | ⟨pass, hpass, -, ⟨id, hid, hne⟩, hjudge⟩
    · exact iff_of_true hnone h
    · rw [hjudge, judge_eq_none_iff]
      exact iff_of_false (fun h => hne (h id hid)) (fun h => hne (h pass hpass id hid))
  constructor
  · intro h pass hearlier tid hstarting
    have hnext := h.goesOn pass tid ((hpolling pass).mpr hearlier) hstarting
    have hnone := (hpolling (pass + 1)).mp hnext pass (Nat.lt_succ_self pass) _ hstarting.1
    cases hnone
  · intro h
    constructor
    · intro passes tid hreturned
      rw [wait_eq hpolls] at hreturned
      rcases ending_cases polls passes with ⟨hnone, -⟩ | ⟨pass, hpass, hearlier, ⟨id, hid, -⟩, hjudge⟩
      · rw [hnone] at hreturned
        cases hreturned
      · obtain ⟨hmem, hids⟩ := judge_ok (hjudge.symm.trans hreturned)
        have hreported : some tid ∈ polls pass :=
          (List.mem_cons.mp hmem).resolve_left (Option.some_ne_none tid)
        refine ⟨pass, hpass, List.ne_nil_of_mem hid, fun id hid => ?_⟩
        rcases hids id hid with rfl | hsame
        · exact absurd ⟨hreported, hid, hids⟩ (h pass hearlier tid)
        · exact hsame
    · intro pass tid hpolled hstarting
      exact absurd hstarting (h pass ((hpolling pass).mp hpolled) tid)

/-- Two nodes with these replies to the commands. -/
def answering (replies : Nat → String) : World :=
  let w := World.plain 2
  { w with
    resource := fun r => { w.resource r with nodes := (OrderedSet.empty.add 0).add 1 }
    env := { w.env with replies := fun k => ⟨0, replies k⟩ } }

/-- The replies, two in each pass. -/
def answers (replies : Nat → String) (pass : Nat) : List (Option Nat) :=
  (List.range' (0 + pass * 2) 2).map (answer (answering replies))

theorem polled_answering (replies : Nat → String) :
    Polled (answering replies) 0 (answers replies) :=
  polled_of_replies (fun _ => rfl) (fun _ _ => rfl)

theorem wait_twopc_both_started :
    Waits (answering fun _ => "Executing tid: 7") 0 (answers fun _ => "Executing tid: 7") := by
  apply (wait_twopc_iff (polled_answering _)).mpr
  intro pass _ tid hstarting
  have hreply : ∀ k, answer (answering fun _ => "Executing tid: 7") k = some 7 := by
    have hread : stateTwopc (String.ofList (Text.strip "Executing tid: 7".toList)) = some 7 := by
      decide +kernel
    exact fun _ => hread
  obtain ⟨k, -, hnone⟩ := List.mem_map.mp hstarting.2.1
  rw [hreply k] at hnone
  cases hnone

/-- The transaction has started on the first node only: the assertion fails. It has started on the
second node only: the call returns. -/
theorem starting_not_waited_for :
    (Polled (answering fun k => if k = 0 then "Executing tid: 7" else "") 0
        (answers fun k => if k = 0 then "Executing tid: 7" else "") ∧
      ¬ Waits (answering fun k => if k = 0 then "Executing tid: 7" else "") 0
        (answers fun k => if k = 0 then "Executing tid: 7" else "")) ∧
    (Polled (answering fun k => if k = 1 then "Executing tid: 7" else "") 0
        (answers fun k => if k = 1 then "Executing tid: 7" else "") ∧
      ¬ Waits (answering fun k => if k = 1 then "Executing tid: 7" else "") 0
        (answers fun k => if k = 1 then "Executing tid: 7" else "")) := by
  refine ⟨⟨polled_answering _, fun h => ?_⟩, ⟨polled_answering _, fun h => ?_⟩⟩
  · have hstarting : answers (fun k => if k = 0 then "Executing tid: 7" else "") 0 =
        [some 7, none] := by decide +kernel
    have hpolling := h.goesOn 0 7 rfl (by rw [hstarting]; simp [Starting])
    have hfails : (exec (waitTwopcStartedOnAll 0 1)
        (answering fun k => if k = 0 then "Executing tid: 7" else "")).1 =
        .error .assertionError := by decide +kernel
    rw [Polling, hfails] at hpolling
    cases hpolling
  · have hreturns : (exec (waitTwopcStartedOnAll 0 1)
        (answering fun k => if k = 1 then "Executing tid: 7" else "")).1 = .ok (some 7) := by
      decide +kernel
    have hstarting : answers (fun k => if k = 1 then "Executing tid: 7" else "") 0 =
        [none, some 7] := by decide +kernel
    have hpolling := h.goesOn 0 7 rfl (by rw [hstarting]; simp [Starting])
    rw [Polling, hreturns] at hpolling
    cases hpolling

end DrbdTests.TwopcTimeout
