import ZkRuntime.Bench.Model.Collect
/-!
# What the collector does in a step

`Moves` has one case for each way through a point, and the rest is read off
it: a step goes forward, the first reason stays, and a run that is spoilt
stays so until it is rejected.
-/

namespace ZkRuntime

namespace Bench

namespace Collect

open PyJson

variable {F : Type} {env : Env F} {c : Config F}

@[simp] theorem Record.blame_primaryFailure (r : Record F) (s : String) :
    (r.blame s).primaryFailure = r.primaryFailure.or (some s) := rfl
@[simp] theorem Record.fail_primaryFailure (r : Record F) (p s : String) :
    (r.fail p s).primaryFailure = r.primaryFailure := rfl
@[simp] theorem Record.blame_failures (r : Record F) (s : String) : (r.blame s).failures = r.failures := rfl
@[simp] theorem Record.fail_failures (r : Record F) (p s : String) :
    (r.fail p s).failures = r.failures ++ [⟨p, s⟩] := rfl
@[simp] theorem Record.blame_accepted (r : Record F) (s : String) : (r.blame s).accepted = r.accepted := rfl
@[simp] theorem Record.fail_accepted (r : Record F) (p s : String) : (r.fail p s).accepted = r.accepted := rfl
@[simp] theorem Record.blame_outerTimedOut (r : Record F) (s : String) :
    (r.blame s).outerTimedOut = r.outerTimedOut := rfl
@[simp] theorem Record.fail_outerTimedOut (r : Record F) (p s : String) :
    (r.fail p s).outerTimedOut = r.outerTimedOut := rfl

@[simp] theorem Record.blame_interrupts (r : Record F) (s : String) : (r.blame s).interrupts = r.interrupts := rfl
@[simp] theorem Record.fail_interrupts (r : Record F) (p s : String) : (r.fail p s).interrupts = r.interrupts := rfl

/-- A reason is found unless everything is in order. -/
theorem Row.reason_eq_none {r : Row} : r.reason = none ↔
    r.stop = none ∧ r.cleanupComplete = true ∧ r.errors = [] ∧ r.signals = [] ∧ r.rawExitCode = some 0 := by
  rw [Row.reason]
  cases r.stop with
  | some s => simp
  | none =>
    dsimp only
    split_ifs with h1 h2 h3 h4 <;> simp_all

/-! ### What a step can do -/

/-- **The record is left at its path**: the commit returns, or raises behind
the write. -/
def Env.Writes (env : Env F) : Prop := env.raises .commit = none ∨ env.written = true

/-- How far along a point is. -/
def Point.place : Point → ℕ
  | .install => 0
  | .head .guardian => 1
  | .recheck .guardian => 2
  | .launch .guardian => 3
  | .judge .guardian => 4
  | .head .verification => 5
  | .recheck .verification => 6
  | .launch .verification => 7
  | .judge .verification => 8
  | .present => 9
  | .read => 10
  | .identify => 11
  | .rebind => 12
  | .diagnose => 13
  | .reap => 14
  | .weigh => 15
  | .restore => 16
  | .commit => 17
  | .published => 18
  | .caught _ => 19
  | .lost => 20

/-- **What a step can do**: one case for each way through a point, and one
for every call that raises. -/
inductive Moves (env : Env F) (c : Config F) : Config F → Prop where
  | raised (stage name : String) (h : c.pc.place ≤ 15) (hne : c.pc ≠ .read) (hr : env.raises c.pc = some name) :
      Moves env c { c with pc := .caught name, stage := stage }
  | installed (h : c.pc = .install) (hr : env.raises c.pc = none) : Moves env c c.install
  | broke (p : Phase) (late : Bool) (reason : String) (h : c.pc = .head p)
      (hstop : env.deadlineNs ≤ env.now c.pc ∨ c.pending ≠ []) :
      Moves env c { c with
        pc := .present
        result := { c.result with outerTimedOut := late }.blame reason }
  | entered (p : Phase) (h : c.pc = .head p) (hr : env.raises c.pc = none) (hnow : env.now c.pc < env.deadlineNs)
      (hp : c.pending = []) : Moves env c (c.goto (.recheck p))
  | rechecked (p : Phase) (stage : String) (h : c.pc = .recheck p) (hr : env.raises c.pc = none) :
      Moves env c { c with pc := .launch p, stage := stage }
  | launched (p : Phase) (stage : String) (h : c.pc = .launch p) (hr : env.raises c.pc = none) :
      Moves env c { c with
        pc := .judge p
        stage := stage
        result := { c.result with phases := c.result.phases ++ [(p, env.child p)] } }
  | blamed (p : Phase) (late : Bool) (reason : String) (pc : Point) (h : c.pc = .judge p)
      (hpc : pc = .present ∨ pc = Config.next p) (hrow : (env.child p).reason = some reason) :
      Moves env c { c with
        pc := pc
        result := ({ c.result with outerTimedOut := late }.fail p.name reason).blame reason }
  | overran (p : Phase) (h : c.pc = .judge p)
      (hlate : c.result.outerTimedOut = true ∨ env.deadlineNs ≤ env.now c.pc) :
      Moves env c { c with pc := .present, result := { c.result with outerTimedOut := true } }
  | passed (p : Phase) (h : c.pc = .judge p) (hr : env.raises c.pc = none) (hrow : (env.child p).reason = none)
      (hnow : env.now c.pc < env.deadlineNs) (ht : c.result.outerTimedOut = false) :
      Moves env c { c with pc := Config.next p, result := { c.result with outerTimedOut := false } }
  | absent (h : c.pc = .present) (hno : c.result.phases.lookup .verification = none ∨ env.present = false) :
      Moves env c (c.goto .rebind)
  | found (h : c.pc = .present) (hr : env.raises c.pc = none) (hyes : env.present = true)
      (hv : c.result.phases.lookup .verification ≠ none) : Moves env c (c.goto .read)
  | unreadable (stage name : String) (h : c.pc = .read) (hrep : ∀ ms, env.report ≠ .ok (.obj ms)) :
      Moves env c { c with pc := .caught name, stage := stage }
  | invalid (stage reason : String) (h : c.pc = .read) (hrep : ∀ ms, env.report ≠ .ok (.obj ms)) :
      Moves env c { c with
        pc := .rebind
        stage := stage
        result := c.result.fail "verification" reason }
  | readOnly (ms : List (Text × Value F)) (stage : String) (h : c.pc = .read)
      (hx : (c.result.phases.lookup .verification).bind Row.rawExitCode ≠ some 0) :
      Moves env c { c with
        pc := .rebind
        stage := stage
        audit := some ms
        result := { c.result with verificationReport := some ms } }
  | readAll (ms : List (Text × Value F)) (stage : String) (h : c.pc = .read) (hms : env.report = .ok (.obj ms))
      (hx : (c.result.phases.lookup .verification).bind Row.rawExitCode = some 0) :
      Moves env c { c with
        pc := .identify
        stage := stage
        audit := some ms
        result := { c.result with verificationReport := some ms } }
  | unread (h : c.pc = .identify) (hno : c.audit = none) : Moves env c (c.goto .rebind)
  | mistaken (ms : List (Text × Value F)) (stage name : String) (h : c.pc = .identify) (hms : c.audit = some ms)
      (hid : lookup (text "run_id") ms ≠ some (.str (text env.runId))) :
      Moves env c { c with pc := .caught name, stage := stage }
  | identified (ms : List (Text × Value F)) (stage : String) (h : c.pc = .identify) (hr : env.raises c.pc = none)
      (hms : c.audit = some ms) (hid : lookup (text "run_id") ms = some (.str (text env.runId))) :
      Moves env c { c with
        pc := .rebind
        stage := stage
        result := { c.result with
          g4EvidenceAccepted := isTrue (lookup (text "final_accepted") ms)
          cryptoEvidenceAccepted := ((crypto ms).map fun cs => isTrue (lookup (text "evidence_valid") cs)).getD false
          artifactIntegrityValid := isTrue (lookup (text "evidence_valid") ms) } }
  | rebound (stage : String) (h : c.pc = .rebind) (hr : env.raises c.pc = none) :
      Moves env c { c with
        pc := .diagnose
        stage := stage
        result := { c.result with sourceBindingValid := true } }
  | diagnosed (h : c.pc = .diagnose) (hr : env.raises c.pc = none) : Moves env c (c.diagnose env)
  | reaped (h : c.pc = .reap) (hr : env.raises c.pc = none) : Moves env c (c.reap env)
  | weighed (h : c.pc = .weigh) (hr : env.raises c.pc = none) : Moves env c (c.weigh env)
  | handled (name : String) (h : c.pc = .caught name) : Moves env c (c.handle env name)
  | restored (h : c.pc = .restore) (hr : env.raises .restore = none) : Moves env c (c.goto .commit)
  | committed (h : c.pc = .commit) (hw : env.Writes) : Moves env c (c.commit env)
  | died (h : c.pc = .restore ∨ c.pc = .commit) (hr : env.raises c.pc ≠ none) : Moves env c (c.goto .lost)
  | rested (h : c.pc = .published ∨ c.pc = .lost) : Moves env c c

theorem moves_call {d : Config F} (q : Point) {next : Config F → Config F} (hd : d = { c with stage := d.stage })
    (hq : c.pc = q) (h : q.place ≤ 15 ∧ q ≠ .read) (hnext : env.raises c.pc = none → Moves env c (next d)) :
    Moves env c (d.call env next) := by
  have hpc : d.pc = c.pc := by rw [hd]
  rw [Config.call, hpc]
  split
  next name hr =>
    rw [hd]
    exact .raised _ name (hq ▸ h.1) (hq ▸ h.2) hr
  next hr => exact hnext hr

theorem moves_judge {p : Phase} (h : c.pc = .judge p) (hr : env.raises c.pc = none) :
    Moves env c (c.judge env p) := by
  rw [Config.judge]
  dsimp only
  cases hrow : (env.child p).reason with
  | some reason =>
    refine .blamed p _ reason _ h ?_ hrow
    split
    · exact .inl rfl
    · exact .inr rfl
  | none =>
    obtain ⟨hstop, hclean, -⟩ := Row.reason_eq_none.1 hrow
    by_cases hlate : (c.result.outerTimedOut || (env.child p).stop = some .outerTimeout ||
        decide (env.deadlineNs ≤ env.now c.pc)) = true
    · rw [hlate]
      simp only [hstop, Bool.or_eq_true, decide_eq_true_eq, reduceCtorEq, or_false] at hlate
      exact .overran p h hlate
    · rw [Bool.eq_false_iff.2 hlate, hclean]
      simp only [hstop, Bool.or_eq_true, decide_eq_true_eq, reduceCtorEq, or_false, not_or, not_le,
        Bool.not_eq_true] at hlate
      exact .passed p h hr hrow hlate.2 hlate.1

theorem moves_read (h : c.pc = .read) : Moves env c (c.read env) := by
  rw [Config.read]
  dsimp only
  cases hrep : env.report with
  | error e =>
    dsimp only
    split
    · exact .invalid _ _ h (by rw [hrep]; nofun)
    · exact .unreadable _ _ h (by rw [hrep]; nofun)
  | ok v =>
    cases v with
    | obj ms =>
      dsimp only
      split
      · exact .readAll ms _ h hrep ‹_›
      · exact .readOnly ms _ h ‹_›
    | _ => exact .invalid _ _ h (by rw [hrep]; nofun)

theorem moves_identify (h : c.pc = .identify) (hr : env.raises c.pc = none) {ms : List (Text × Value F)}
    (hms : c.audit = some ms) : Moves env c (c.identify env ms) := by
  rw [Config.identify, Config.require]
  by_cases hid : lookup (text "run_id") ms = some (.str (text env.runId))
  · rw [if_pos (by rw [hid]; exact decide_eq_true rfl)]
    exact .identified ms _ h hr hms hid
  · rw [if_neg]
    · exact .mistaken ms _ _ h hms hid
    · intro hmatch
      split at hmatch
      next t hl =>
        rw [decide_eq_true_eq] at hmatch
        exact hid (hmatch ▸ hl)
      next => cases hmatch

/-- The commit does not raise before the record is there. -/
theorem writes_of_not (h : ¬ ((env.raises .commit).isSome && !env.written) = true) : env.Writes := by
  rw [Bool.and_eq_true, Bool.not_eq_true', not_and, Bool.not_eq_false] at h
  cases hr : env.raises .commit with
  | none => exact .inl hr
  | some name => exact .inr (h (by rw [hr]; rfl))

/-- **A step does one of these.** -/
theorem moves (c : Config F) : Moves env c (c.act env) := by
  obtain ⟨pc, pending, result, stage, audit, installed⟩ := c
  rw [Config.act]
  cases pc with
  | install => exact moves_call .install rfl rfl (by decide) fun hr => .installed rfl hr
  | head p =>
    refine moves_call (.head p) rfl rfl (by cases p <;> decide) fun hr => ?_
    rw [Config.head]
    split
    next hstop => exact .broke p _ _ rfl hstop
    next hstop =>
      rw [not_or, not_le, not_not] at hstop
      exact .entered p rfl hr hstop.1 hstop.2
  | recheck p =>
    refine moves_call (.recheck p) rfl rfl (by cases p <;> decide) fun hr => ?_
    exact .rechecked p _ rfl hr
  | launch p =>
    refine moves_call (.launch p) rfl rfl (by cases p <;> decide) fun hr => ?_
    exact .launched p _ rfl hr
  | judge p => exact moves_call (.judge p) rfl rfl (by cases p <;> decide) fun hr => moves_judge rfl hr
  | present =>
    dsimp only
    split
    next hv =>
      refine moves_call .present rfl rfl (by decide) fun hr => ?_
      rw [Config.present]
      split
      next hyes => exact .found rfl hr hyes (Option.isSome_iff_ne_none.1 hv)
      next hno => exact .absent rfl (.inr (Bool.eq_false_iff.2 hno))
    next hno => exact .absent rfl (.inl (by rwa [Option.not_isSome_iff_eq_none] at hno))
  | read => exact moves_read rfl
  | identify =>
    refine moves_call .identify rfl rfl (by decide) fun hr => ?_
    cases audit with
    | none => exact .unread rfl rfl
    | some ms => exact moves_identify rfl hr rfl
  | rebind => exact moves_call .rebind rfl rfl (by decide) fun hr => .rebound _ rfl hr
  | diagnose => exact moves_call .diagnose rfl rfl (by decide) fun hr => .diagnosed rfl hr
  | reap => exact moves_call .reap rfl rfl (by decide) fun hr => .reaped rfl hr
  | weigh => exact moves_call .weigh rfl rfl (by decide) fun hr => .weighed rfl hr
  | caught name => exact .handled name rfl
  | restore =>
    dsimp only
    split
    next hr => exact .died (.inl rfl) (Option.isSome_iff_ne_none.1 hr)
    next hr => exact .restored rfl (by rwa [Option.not_isSome_iff_eq_none] at hr)
  | commit =>
    dsimp only
    split
    next hr => exact .died (.inr rfl) (Option.isSome_iff_ne_none.1 (Bool.and_eq_true_iff.1 hr).1)
    next hr => exact .committed rfl (writes_of_not hr)
  | published => exact .rested (.inl rfl)
  | lost => exact .rested (.inr rfl)

/-! ### The first reason -/

@[simp] theorem arrive_result : (c.arrive env).result = c.result := by
  rw [Config.arrive]
  split <;> rfl

@[simp] theorem arrive_pc : (c.arrive env).pc = c.pc := by
  rw [Config.arrive]
  split <;> rfl

theorem arrive_installed : (c.arrive env).installed = c.installed := by
  rw [Config.arrive]
  split <;> rfl

/-- Statements keep what each of them keeps. -/
theorem foldl_keeps {P : Record F → Prop} {fs : List (Record F → Record F)} (hk : ∀ f ∈ fs, ∀ r, P r → P (f r))
    {r : Record F} (h : P r) : P (fs.foldl (fun r f => f r) r) := by
  induction fs generalizing r with
  | nil => exact h
  | cons f fs ih => exact ih (fun g hg => hk g (List.mem_cons_of_mem _ hg)) (hk f List.mem_cons_self r h)

/-- And so does what is run of `except BaseException`. -/
theorem handle_keeps {P : Record F → Prop} {name : String}
    (hk : ∀ f ∈ Config.handling name c.stage, ∀ r, P r → P (f r)) (h : P c.result) : P (c.handle env name).result := by
  rw [Config.handle]
  dsimp only
  split
  · exact foldl_keeps hk h
  · exact foldl_keeps (fun f hf => hk f (List.mem_of_mem_take hf)) h

/-- With the handlers there all of it is run. -/
theorem handle_installed (env : Env F) (name : String) (h : c.installed = true) : (c.handle env name).result.accepted = false ∧
    (c.handle env name).result.primaryFailure = c.result.primaryFailure.or (some "collector_exception") := by
  rw [Config.handle]
  dsimp only
  rw [if_pos h]
  exact ⟨rfl, rfl⟩

/-- **A reason that was found is not replaced by another.** -/
theorem Moves.primaryFailure {c' : Config F} (hm : Moves env c c') {p : String}
    (h : c.result.primaryFailure = some p) : c'.result.primaryFailure = some p := by
  have hor : ∀ {r : Record F} {s : String}, r.primaryFailure = some p → (r.blame s).primaryFailure = some p := by
    intro r s hr
    rw [Record.blame_primaryFailure, hr, Option.some_or]
  cases hm with
  | broke | blamed => exact hor h
  | handled name =>
    refine handle_keeps (P := fun r => r.primaryFailure = some p) (fun f hf r hr => ?_) h
    simp only [Config.handling, List.mem_cons, List.not_mem_nil, or_false] at hf
    rcases hf with rfl | rfl | rfl | rfl
    · exact hr
    · exact hor hr
    · exact hr
    · exact hr
  | weighed =>
    rw [Config.weigh]
    dsimp only
    split
    · exact h
    · exact hor h
  | committed =>
    rw [Config.commit]
    dsimp only
    split
    · exact h
    · exact hor h
  | _ => exact h

theorem config_succ (env : Env F) (n : ℕ) : config env (n + 1) = (config env n).step env :=
  Function.iterate_succ_apply' _ _ _

theorem primaryFailure_of_le {m n : ℕ} (hmn : m ≤ n) {p : String}
    (h : (config env m).result.primaryFailure = some p) :
    (config env n).result.primaryFailure = some p := by
  induction n, hmn using Nat.le_induction with
  | base => exact h
  | succ n _ ih =>
    rw [config_succ]
    exact (moves _).primaryFailure (by rwa [arrive_result])

/-! ### Forward -/

theorem Moves.pending {c' : Config F} (hm : Moves env c c') : c'.pending = c.pending := by
  cases hm <;> rfl

/-- The handlers stay, up to the end. -/
theorem Moves.stays_installed {c' : Config F} (hm : Moves env c c') (h : c.installed = true) : c'.installed = true := by
  cases hm with
  | installed => rfl
  | _ => exact h

theorem Moves.failures {c' : Config F} (hm : Moves env c c') (h : c.result.failures ≠ []) :
    c'.result.failures ≠ [] := by
  have happ : ∀ l, c.result.failures ++ l ≠ [] := fun l hl => h (List.append_eq_nil_iff.1 hl).1
  cases hm with
  | blamed | invalid | diagnosed => exact happ _
  | handled name =>
    refine handle_keeps (P := fun r => r.failures ≠ []) (fun f hf r hr => ?_) h
    simp only [Config.handling, List.mem_cons, List.not_mem_nil, or_false] at hf
    rcases hf with rfl | rfl | rfl | rfl
    · exact hr
    · exact hr
    · exact hr
    · exact fun hl => hr (List.append_eq_nil_iff.1 hl).1
  | weighed =>
    rw [Config.weigh]
    dsimp only
    split <;> exact h
  | committed =>
    rw [Config.commit]
    dsimp only
    split
    · exact h
    · exact happ _
  | _ => exact h

/-- **Every step goes forward**, and to the verdict, unless a call raises. -/
theorem Moves.forward {c' : Config F} (hm : Moves env c c') (h : c.pc.place < 15) :
    (∃ name, c'.pc = .caught name) ∨ c.pc.place < c'.pc.place ∧ c'.pc.place ≤ 15 := by
  have hnext : ∀ p : Phase, (Point.judge p).place < (Config.next p).place ∧ (Config.next p).place ≤ 15 := by
    intro p
    cases p <;> decide
  cases hm with
  | raised _ name | unreadable _ name | mistaken _ _ name => exact .inl ⟨name, rfl⟩
  | broke p _ _ hpc | entered p hpc | rechecked p _ hpc | launched p _ hpc | overran p hpc =>
    right
    rw [hpc]
    cases p <;> exact ⟨by simp [Point.place, Config.goto], by simp [Point.place, Config.goto]⟩
  | passed p hpc =>
    rw [hpc]
    exact .inr (hnext p)
  | blamed p _ _ _ hpc hto _ =>
    right
    rw [hpc]
    rcases hto with rfl | rfl
    · cases p <;> exact ⟨by simp [Point.place], by simp [Point.place]⟩
    · exact hnext p
  | weighed hpc | handled _ hpc | restored hpc | committed hpc => simp [hpc, Point.place] at h
  | died hpc | rested hpc => rcases hpc with hpc | hpc <;> simp [hpc, Point.place] at h
  | installed hpc | absent hpc | found hpc | unread hpc | diagnosed hpc | reaped hpc =>
    right
    rw [hpc]
    exact ⟨by simp [Point.place, Config.goto, Config.install, Config.diagnose, Config.reap],
      by simp [Point.place, Config.goto, Config.install, Config.diagnose, Config.reap]⟩
  | invalid _ _ hpc | readOnly _ _ hpc | readAll _ _ hpc | identified _ _ hpc | rebound _ hpc =>
    right
    rw [hpc]
    exact ⟨by simp [Point.place], by simp [Point.place]⟩

/-! ### The verdict -/

theorem weigh_pc (env : Env F) (c : Config F) : (c.weigh env).pc = .restore := rfl

/-- **What the preliminary verdict asks for.** -/
theorem weigh_accepted : (c.weigh env).result.accepted = true ↔
    c.guardianOk = true ∧ (c.result.outerTimedOut = false ∧ env.now c.pc < env.deadlineNs) ∧ c.pending = [] ∧
      c.result.cleanupComplete = true ∧ c.result.g4EvidenceAccepted = true ∧
      c.result.cryptoEvidenceAccepted = true ∧ c.result.sourceBindingValid = true ∧
      c.result.artifactIntegrityValid = true ∧ c.result.failures = [] := by
  rw [Config.weigh]
  dsimp only
  rw [show ∀ (b : Bool) (x y : Record F), (if b = true then x else y).accepted = if b = true then x.accepted else
    y.accepted from fun b x y => apply_ite Record.accepted _ _ _]
  simp [List.isEmpty_iff, and_assoc]

/-- An acceptance changes nothing else. -/
theorem weigh_result (h : (c.weigh env).result.accepted = true) :
    (c.weigh env).result = { c.result with accepted := true } := by
  obtain ⟨-, ⟨htime, hnow⟩, -⟩ := weigh_accepted.1 h
  have hlate : (c.result.outerTimedOut || decide (env.deadlineNs ≤ env.now c.pc)) = c.result.outerTimedOut := by
    rw [htime, Bool.false_or, decide_eq_false_iff_not]
    exact Int.not_le.2 hnow
  rw [Config.weigh] at h ⊢
  dsimp only at h ⊢
  rw [hlate] at h ⊢
  split at h
  next ha => rw [if_pos ha, ha]
  next ha => exact absurd h ha

/-- A rejection has a reason. -/
theorem weigh_rejected (h : (c.weigh env).result.accepted ≠ true) :
    (c.weigh env).result.accepted = false ∧ (c.weigh env).result.primaryFailure ≠ none := by
  refine ⟨Bool.eq_false_iff.2 h, ?_⟩
  rw [Config.weigh] at h ⊢
  dsimp only at h ⊢
  split at h
  next ha => exact absurd ha h
  next ha =>
    rw [if_neg ha, Record.blame_primaryFailure, Option.or_some]
    nofun

/-- What is left of the verdict when the record is completed. -/
theorem commit_accepted : (c.commit env).result.accepted = true ↔
    c.result.accepted = true ∧ c.pending = [] ∧ c.result.outerTimedOut = false ∧
      env.now c.pc < c.result.deadlineNs := by
  rw [Config.commit]
  dsimp only
  split
  next hp => simp [hp]
  next hp =>
    have hp : ¬ c.pending = [] := hp
    simp [hp, List.isEmpty_iff]

theorem commit_primaryFailure : (c.commit env).result.primaryFailure =
    if c.pending = [] then c.result.primaryFailure
    else c.result.primaryFailure.or (some "collector_interrupted") := by
  rw [Config.commit]
  dsimp only
  split <;> rfl

/-! ### Spoilt runs -/

/-- **Something has gone wrong**, and the verdict will see it or has. -/
inductive Spoilt (c : Config F) : Prop where
  | caught (name : String) (h : c.pc = .caught name)
  | lost (h : c.pc = .lost)
  | failed (h : c.pc.place ≤ 15) (hf : c.result.failures ≠ [])
  | signalled (h : c.pc.place ≤ 15) (hp : c.pending ≠ [])
  | late (h : 9 ≤ c.pc.place ∧ c.pc.place ≤ 15) (ht : c.result.outerTimedOut = true)
  | unverified (h : c.pc = .present) (hv : c.result.phases.lookup .verification = none)
      (hg : c.result.g4EvidenceAccepted = false)
  | refuted (h : 12 ≤ c.pc.place ∧ c.pc.place ≤ 15) (hg : ¬ (c.result.g4EvidenceAccepted = true ∧
      c.result.cryptoEvidenceAccepted = true ∧ c.result.artifactIntegrityValid = true))
  | surrounded (h : c.pc = .weigh) (hc : c.result.cleanupComplete = false)
  | rejected (h : 16 ≤ c.pc.place ∧ c.pc.place ≤ 18) (ha : c.result.accepted = false)
      (hp : c.result.primaryFailure ≠ none)

theorem Spoilt.arrive (h : Spoilt c) : Spoilt (c.arrive env) := by
  cases h with
  | caught name h => exact .caught name (by rwa [arrive_pc])
  | lost h => exact .lost (by rwa [arrive_pc])
  | failed h hf => exact .failed (by rwa [arrive_pc]) (by rwa [arrive_result])
  | signalled h hp =>
    refine .signalled (by rwa [arrive_pc]) ?_
    rw [Config.arrive]
    split
    · exact hp
    · exact hp
    · exact hp
    · exact fun hl => hp (List.append_eq_nil_iff.1 hl).1
  | late h ht => exact .late (by rwa [arrive_pc]) (by rwa [arrive_result])
  | unverified h hv hg => exact .unverified (by rwa [arrive_pc]) (by rwa [arrive_result]) (by rwa [arrive_result])
  | refuted h hg => exact .refuted (by rwa [arrive_pc]) (by rwa [arrive_result])
  | surrounded h hc => exact .surrounded (by rwa [arrive_pc]) (by rwa [arrive_result])
  | rejected h ha hp => exact .rejected (by rwa [arrive_pc]) (by rwa [arrive_result]) (by rwa [arrive_result])

/-- A run that is spoilt is not accepted. -/
theorem Spoilt.weigh (h : Spoilt c) (hpc : c.pc = .weigh) : (c.weigh env).result.accepted ≠ true := by
  intro ha
  obtain ⟨-, ⟨htime, -⟩, hpend, hclean, hg4, hcrypto, -, hint, hfail⟩ := weigh_accepted.1 ha
  cases h with
  | caught name h => rw [hpc] at h; cases h
  | lost h => rw [hpc] at h; cases h
  | failed h hf => exact hf hfail
  | signalled h hp => exact hp hpend
  | late h ht => rw [htime] at ht; cases ht
  | unverified h hv hg => rw [hpc] at h; cases h
  | refuted h hg => exact hg ⟨hg4, hcrypto, hint⟩
  | surrounded h hc => rw [hclean] at hc; cases hc
  | rejected h _ _ => rw [hpc] at h; exact absurd h.1 (by decide)

theorem spoilt_weigh (h : (c.weigh env).result.accepted ≠ true) : Spoilt (c.weigh env) := by
  obtain ⟨ha, hp⟩ := weigh_rejected h
  exact .rejected (weigh_pc env c ▸ by decide) ha hp

/-- What goes to the verdict with a failure or a signal on it. -/
theorem Spoilt.forward {c' : Config F} (hm : Moves env c c') (hplace : c.pc.place < 15)
    (h : c'.pc.place ≤ 15 → Spoilt c') : Spoilt c' := by
  rcases hm.forward hplace with ⟨name, hname⟩ | ⟨-, hle⟩
  · exact .caught name hname
  · exact h hle

/-- What is published was rejected. -/
theorem Spoilt.of_published (h : Spoilt c) (hpc : c.pc = .published) :
    c.result.accepted = false ∧ c.result.primaryFailure ≠ none := by
  cases h with
  | rejected _ ha hp => exact ⟨ha, hp⟩
  | caught name h => simp [hpc] at h
  | lost h | unverified h | surrounded h => simp [hpc] at h
  | failed h | signalled h | late h | refuted h => simp [hpc, Point.place] at h

/-- From the end of the loop on a timeout is kept. -/
theorem Moves.outerTimedOut {c' : Config F} (hm : Moves env c c') (h : 9 ≤ c.pc.place ∧ c.pc.place < 15)
    (ht : c.result.outerTimedOut = true) : c'.result.outerTimedOut = true := by
  cases hm with
  | broke p _ _ hpc | blamed p _ _ _ hpc | passed p hpc =>
    rw [hpc] at h
    cases p <;> simp [Point.place] at h
  | overran => rfl
  | weighed hpc | committed hpc | handled _ hpc => simp [hpc, Point.place] at h
  | _ => exact ht

/-- Behind the report its verdicts are kept. -/
theorem Moves.verdicts {c' : Config F} (hm : Moves env c c') (h : 12 ≤ c.pc.place ∧ c.pc.place < 15) :
    c'.result.g4EvidenceAccepted = c.result.g4EvidenceAccepted ∧
    c'.result.cryptoEvidenceAccepted = c.result.cryptoEvidenceAccepted ∧
    c'.result.artifactIntegrityValid = c.result.artifactIntegrityValid := by
  cases hm with
  | identified _ _ hpc | weighed hpc | committed hpc | handled _ hpc => simp [hpc, Point.place] at h
  | _ => exact ⟨rfl, rfl, rfl⟩

/-- **And it stays so**, once the handlers are installed. -/
theorem Spoilt.moves {c' : Config F} (h : Spoilt c) (hi : c.installed = true) (hm : Moves env c c') : Spoilt c' := by
  by_cases hweigh : c.pc = .weigh
  · -- at the verdict, whatever is wrong
    cases hm with
    | raised _ name | unreadable _ name | mistaken _ _ name => exact .caught name rfl
    | weighed => exact spoilt_weigh (h.weigh hweigh)
    | died hpc | rested hpc => rcases hpc with hpc | hpc <;> simp [hpc] at hweigh
    | _ => simp_all
  have hbefore : c.pc.place ≤ 15 → c.pc.place < 15 := by
    intro hle
    refine Nat.lt_of_le_of_ne hle fun h15 => hweigh ?_
    cases hpc : c.pc with
    | head p | recheck p | launch p | judge p =>
      rw [hpc] at h15
      cases p <;> simp [Point.place] at h15
    | weigh => rfl
    | _ => simp [hpc, Point.place] at h15
  cases h with
  | caught name hpc =>
    cases hm with
    | raised _ _ hle => rw [hpc] at hle; exact absurd hle (by simp [Point.place])
    | handled name =>
      obtain ⟨ha, hp⟩ := handle_installed env name hi
      refine .rejected (by simp [Config.handle, Point.place]) ha ?_
      rw [hp]
      cases c.result.primaryFailure <;> simp
    | died hpc' | rested hpc' => rcases hpc' with hpc' | hpc' <;> simp [hpc] at hpc'
    | _ => simp_all
  | lost hpc =>
    cases hm with
    | raised _ _ hle => rw [hpc] at hle; exact absurd hle (by decide)
    | died hpc' => rcases hpc' with hpc' | hpc' <;> simp [hpc] at hpc'
    | rested => exact .lost hpc
    | _ => simp_all
  | failed hle hf => exact .forward hm (hbefore hle) fun hle' => .failed hle' (hm.failures hf)
  | signalled hle hp => exact .forward hm (hbefore hle) fun hle' => .signalled hle' (hm.pending ▸ hp)
  | late hle ht =>
    rcases hm.forward (hbefore hle.2) with ⟨name, hname⟩ | ⟨hlt, hle'⟩
    · exact .caught name hname
    · exact .late ⟨by omega, hle'⟩ (hm.outerTimedOut ⟨hle.1, hbefore hle.2⟩ ht)
  | unverified hpc hv hg =>
    cases hm with
    | raised _ name | unreadable _ name | mistaken _ _ name => exact .caught name rfl
    | absent => exact .refuted (by simp [Config.goto, Point.place]) fun h => by simp [Config.goto, hg] at h
    | found _ _ _ hv' => exact absurd hv hv'
    | died hpc' | rested hpc' => rcases hpc' with hpc' | hpc' <;> simp [hpc] at hpc'
    | _ => simp_all
  | refuted hle hg =>
    rcases hm.forward (hbefore hle.2) with ⟨name, hname⟩ | ⟨hlt, hle'⟩
    · exact .caught name hname
    · obtain ⟨h1, h2, h3⟩ := hm.verdicts ⟨hle.1, hbefore hle.2⟩
      exact .refuted ⟨by omega, hle'⟩ (by rwa [h1, h2, h3])
  | surrounded hpc => exact absurd hpc hweigh
  | rejected hle ha hp =>
    obtain ⟨p, hp'⟩ := Option.ne_none_iff_exists'.1 hp
    have hkeep := hm.primaryFailure hp'
    cases hm with
    | raised _ _ hle' => omega
    | restored => exact .rejected (by simp [Config.goto, Point.place]) ha hp
    | committed =>
      refine .rejected (by simp [Config.commit, Point.place]) ?_ (hkeep ▸ nofun)
      rw [Bool.eq_false_iff]
      intro hc
      rw [(commit_accepted.1 hc).1] at ha
      cases ha
    | died => exact .lost rfl
    | rested => exact .rejected hle ha hp
    | broke p _ _ hpc | entered p hpc | rechecked p _ hpc | launched p _ hpc | overran p hpc =>
      rw [hpc] at hle
      cases p <;> simp [Point.place] at hle
    | blamed p _ _ _ hpc | passed p hpc =>
      rw [hpc] at hle
      cases p <;> simp [Point.place] at hle
    | _ => simp_all [Point.place]

end Collect

end Bench

end ZkRuntime
