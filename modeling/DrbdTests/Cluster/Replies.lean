import DrbdTests.Cluster.Commands

/-!
# Replies that decide

Commands raise when their reply is bad, so whether a call returns can be read off the replies that
are still to come. `Asks m w count P` says that `m` makes `count` requests when it returns, and
returns exactly when the next `count` replies are good and `P` holds.
-/

namespace DrbdTests

open Stateful

/-- The next replies are good. -/
def World.RepliesGood (w : World) (count : Nat) : Prop :=
  ∀ k < count, (w.env.replies (w.requests.length + k)).returncode = 0

/-- The computation makes requests, and returns exactly when their replies are good and `P`
holds. -/
structure Asks {α : Type} (m : Py α) (w : World) (count : Nat) (P : Prop) : Prop where
  returns_iff : (exec m w).1.toBool = true ↔ P ∧ w.RepliesGood count
  env : (exec m w).1.toBool = true → (exec m w).2.env = w.env
  length : (exec m w).1.toBool = true →
    (exec m w).2.requests.length = w.requests.length + count

section Asks

variable {α β : Type} {w w' : World} {m : Py α} {f : α → Py β} {count count' : Nat} {P P' : Prop}

theorem repliesGood_add (henv : w'.env = w.env)
    (hlength : w'.requests.length = w.requests.length + count) :
    w.RepliesGood (count + count') ↔ w.RepliesGood count ∧ w'.RepliesGood count' := by
  unfold World.RepliesGood
  rw [henv, hlength]
  constructor
  · intro h
    refine ⟨fun k hk => h k (by omega), fun k hk => ?_⟩
    rw [Nat.add_assoc]
    exact h _ (by omega)
  · rintro ⟨h, h'⟩ k hk
    by_cases hlt : k < count
    · exact h k hlt
    · obtain ⟨j, rfl⟩ := Nat.exists_eq_add_of_le (Nat.le_of_not_lt hlt)
      rw [← Nat.add_assoc]
      exact h' j (by omega)

theorem asks_pure (a : α) : Asks (pure a) w 0 True where
  returns_iff := by simp [World.RepliesGood, Except.toBool]
  env _ := rfl
  length _ := rfl

theorem Asks.bind (h : Asks m w count P)
    (h' : ∀ a w', exec m w = (.ok a, w') → Asks (f a) w' count' P') :
    Asks (m >>= f) w (count + count') (P ∧ P') := by
  rcases hexec : exec m w with ⟨e | a, w'⟩
  · -- the first part raises
    have hm : ¬ (P ∧ w.RepliesGood count) := by
      rw [← h.returns_iff, hexec]
      simp [Except.toBool]
    have hfails : (exec (m >>= f) w).1.toBool = false := by
      rw [exec_bind_of_error hexec]
      rfl
    refine ⟨?_, by simp [hfails], by simp [hfails]⟩
    rw [hfails]
    constructor
    · intro hfalse
      cases hfalse
    · rintro ⟨⟨hP, -⟩, hgood⟩
      exact absurd ⟨hP, fun k hk => hgood k (by omega)⟩ hm
  · have hreturns : (exec m w).1.toBool = true := by rw [hexec]; rfl
    have henv := h.env hreturns
    have hlength := h.length hreturns
    obtain ⟨hP, hgood⟩ := h.returns_iff.mp hreturns
    rw [hexec] at henv hlength
    have hf := h' a w' hexec
    refine ⟨?_, ?_, ?_⟩
    · rw [exec_bind_of_ok hexec, hf.returns_iff, repliesGood_add henv hlength, and_iff_right hP,
        and_iff_right hgood]
    · intro hrest
      rw [exec_bind_of_ok hexec] at hrest ⊢
      exact (hf.env hrest).trans henv
    · intro hrest
      rw [exec_bind_of_ok hexec] at hrest ⊢
      rw [hf.length hrest, hlength, Nat.add_assoc]

theorem asks_get_bind {f : World → Py β} (h : Asks (f w) w count P) :
    Asks (get >>= f) w count P := by
  constructor
  · rw [exec_get_bind]
    exact h.returns_iff
  · rw [exec_get_bind]
    exact h.env
  · rw [exec_get_bind]
    exact h.length

theorem Asks.congr (h : Asks m w count P) (hcount : count = count') (hP : P ↔ P') :
    Asks m w count' P' := by
  subst hcount
  exact ⟨by rw [h.returns_iff, hP], h.env, h.length⟩

/-- The result is not looked at. -/
theorem Asks.drop (h : Asks m w count P) : Asks (do let _ ← m) w count P :=
  (h.bind fun _ _ _ => asks_pure PUnit.unit).congr (Nat.add_zero _) (and_iff_left trivial)

theorem asks_modify {g : World → World} (henv : (g w).env = w.env)
    (hrequests : (g w).requests = w.requests) : Asks (modify g : Py PUnit) w 0 True where
  returns_iff := by simp [World.RepliesGood, Except.toBool]
  env _ := henv
  length _ := congrArg List.length hrequests

theorem asks_liftExcept (r : Except PyError α) (w : World) :
    Asks (Py.liftExcept r) w 0 (r.toBool = true) := by
  constructor
  · rw [exec_liftExcept]
    simp [World.RepliesGood]
  · rw [exec_liftExcept]
    exact fun _ => rfl
  · rw [exec_liftExcept]
    exact fun _ => rfl

/-- A request whose reply is good or makes the computation raise. -/
theorem asks_request {p : Reply → Prop} [DecidablePred p] {e : Reply → PyError} {out : Reply → α}
    (hp : ∀ reply, p reply ↔ reply.returncode ≠ 0) (r : Request) (w : World) :
    Asks (do
      let reply ← request r
      if p reply then throw (e reply) else pure (out reply)) w 1 True := by
  have hgood : w.RepliesGood 1 ↔ (w.env.replies w.requests.length).returncode = 0 := by
    simp [World.RepliesGood]
  let reply := w.env.replies w.requests.length
  have hexec : exec (do
      let reply ← request r
      if p reply then throw (e reply) else pure (out reply) : Py α) w =
      exec (if p reply then throw (e reply) else pure (out reply) : Py α)
        { w with requests := (r, (reply.returncode = 0 : Bool)) :: w.requests } :=
    exec_bind_of_ok (exec_request _ w)
  by_cases hcode : p reply
  · rw [if_pos hcode] at hexec
    have hfalse : (exec (do
        let reply ← request r
        if p reply then throw (e reply) else pure (out reply) : Py α) w).1.toBool = false := by
      rw [hexec]
      rfl
    refine ⟨?_, by simp [hfalse], by simp [hfalse]⟩
    rw [hfalse, hgood]
    simpa using (hp reply).mp hcode
  · rw [if_neg hcode] at hexec
    have hzero : reply.returncode = 0 := not_ne_iff.mp fun hne => hcode ((hp reply).mpr hne)
    refine ⟨?_, ?_, ?_⟩
    · rw [hexec, hgood]
      simpa [Except.toBool] using hzero
    · rw [hexec]
      exact fun _ => rfl
    · rw [hexec]
      exact fun _ => rfl

theorem asks_runWith (host : HostId) (cmd : List String) (stdin : Option String) (effect : Effect)
    (w : World) : Asks (Host.runWith false host cmd stdin effect) w 1 True :=
  asks_request (fun reply => by simp) _ w

theorem asks_event {nodes : List NodeId} (hne : nodes ≠ []) (pattern : String) (w : World) :
    Asks (Nodes.event nodes pattern) w 1 True := by
  unfold Nodes.event
  rw [if_neg hne]
  exact asks_request (fun reply => Iff.rfl) _ w

theorem asks_updateConfig (n : NodeId) (w : World) :
    Asks (Node.updateConfig n) w (if (w.node n).configChanged then 1 else 0)
      ((w.node n).configChanged = true → (Node.config w n).toBool = true) := by
  apply asks_get_bind
  rcases hflag : (w.node n).configChanged with _ | _
  · exact (asks_pure _).congr rfl (by simp)
  · have hset : Asks (modify fun w : World => w.setFlag n false : Py PUnit) w 0 True :=
      asks_modify rfl rfl
    have hall := hset.bind fun _ w₁ _ => (asks_liftExcept (Node.config w n) w₁).bind
      fun config w₂ _ => (asks_runWith (w.node n).host
        ["bash", "-c", "cat > " ++ Node.drbdConfigFilePath w n] (some config) (.upload n) w₂).drop
    exact hall.congr rfl (by simp)

theorem asks_drbdadm (n : NodeId) (cmd : List String) (w : World) :
    Asks (Node.drbdadm n cmd) w ((if (w.node n).configChanged then 1 else 0) + 1)
      ((w.node n).configChanged = true → (Node.config w n).toBool = true) := by
  apply asks_get_bind
  have hall := (asks_updateConfig n w).bind fun _ w₁ _ =>
    asks_get_bind (asks_runWith (w₁.node n).host
      (["drbdadm", "-c", Host.drbdGlobalConfigFilePath w (w.node n).host, "-v"] ++ cmd) none .none w₁)
  exact hall.congr rfl (and_iff_left trivial)

end Asks

end DrbdTests
