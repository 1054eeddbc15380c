import ZkRuntime.Bench.Helpers.Collecting
/-!
# The clean path

The points of a collection that nothing goes wrong in, one after the other,
and what the environment answers at each. A run is on the path, and then its
record is known, or it is spoilt, or an exception has ended it before the
handlers were installed.
-/

namespace ZkRuntime

namespace Bench

namespace Collect

open PyJson

variable {F : Type} {env : Env F} {c : Config F}

/-- The points of the path, by their places. -/
def Point.ofPlace : ℕ → Point
  | 0 => .install
  | 1 => .head .guardian
  | 2 => .recheck .guardian
  | 3 => .launch .guardian
  | 4 => .judge .guardian
  | 5 => .head .verification
  | 6 => .recheck .verification
  | 7 => .launch .verification
  | 8 => .judge .verification
  | 9 => .present
  | 10 => .read
  | 11 => .identify
  | 12 => .rebind
  | 13 => .diagnose
  | 14 => .reap
  | 15 => .weigh
  | 16 => .restore
  | 17 => .commit
  | _ => .published

theorem Point.ofPlace_place {q : Point} (h : q.place ≤ 18) : ofPlace q.place = q := by
  cases q with
  | head p | recheck p | launch p | judge p => cases p <;> rfl
  | caught | lost => simp [place] at h
  | _ => rfl

/-- What the report decodes to. -/
def Env.audit (env : Env F) : List (Text × Value F) :=
  match env.report with
  | .ok (.obj ms) => ms
  | _ => []

/-- **A report that accepts the run.** -/
structure Verified (runId : String) (ms : List (Text × Value F)) : Prop where
  run_id : lookup (text "run_id") ms = some (.str (text runId))
  final_accepted : lookup (text "final_accepted") ms = some (.bool true)
  evidence_valid : lookup (text "evidence_valid") ms = some (.bool true)
  crypto : ∃ cs, lookup (text "crypto") ms = some (.obj cs) ∧
    lookup (text "evidence_valid") cs = some (.bool true)

theorem isTrue_iff {o : Option (Value F)} : isTrue o = true ↔ o = some (.bool true) := by
  rw [isTrue.eq_def]
  split
  next b => simp
  next h =>
    refine ⟨nofun, fun h' => (h _ h').elim⟩

theorem crypto_accepted {ms : List (Text × Value F)} :
    ((crypto ms).map fun cs => isTrue (lookup (text "evidence_valid") cs)).getD false = true ↔
      ∃ cs, lookup (text "crypto") ms = some (.obj cs) ∧ lookup (text "evidence_valid") cs = some (.bool true) := by
  rw [crypto.eq_def]
  split
  next cs hcs => simp [hcs, isTrue_iff]
  next hno =>
    refine ⟨nofun, ?_⟩
    rintro ⟨cs, hcs, -⟩
    exact (hno cs hcs).elim

/-- **Nothing goes wrong at a point**: no signal arrives, no call raises, and
the answer is the one that is hoped for. -/
def Env.CleanAt (env : Env F) (q : Point) : Prop :=
  env.arrivals q = [] ∧ (q ≠ .read → env.raises q = none) ∧
    match q with
    | .head _ => env.now q < env.deadlineNs
    | .judge p => (env.child p).reason = none ∧ env.now q < env.deadlineNs
    | .present => env.present = true
    | .read => env.report = .ok (.obj env.audit)
    | .identify => Verified env.runId env.audit
    | .diagnose => failures env.evidence (some env.audit) = []
    | .reap => env.children = []
    | .weigh => (env.child .guardian).exitedBeforeDeadline = true ∧ env.now q < env.deadlineNs
    | _ => True

/-- **Nothing goes wrong up to the verdict.** -/
def Env.Clean (env : Env F) : Prop := ∀ q : Point, q.place ≤ 15 → env.CleanAt q

/-- The record at a place of the path. -/
def Env.record (env : Env F) (k : ℕ) : Record F :=
  { (Record.initial env.runId env.deadlineNs : Record F) with
    phases := (if 3 < k then [(.guardian, env.child .guardian)] else []) ++
      if 7 < k then [(.verification, env.child .verification)] else []
    verificationReport := if 10 < k then some env.audit else none
    g4EvidenceAccepted := 11 < k
    cryptoEvidenceAccepted := 11 < k
    artifactIntegrityValid := 11 < k
    sourceBindingValid := 12 < k
    cleanupComplete := 14 < k
    accepted := 15 < k }

/-- **A run is on the path.** -/
structure Along (env : Env F) (c : Config F) : Prop where
  place_le : c.pc.place ≤ 16
  pending : c.pending = []
  result : c.result = env.record c.pc.place
  audit : 10 < c.pc.place → c.audit = some env.audit
  clean : ∀ q : Point, q.place < c.pc.place → env.CleanAt q
  installed : c.installed = true

/-- **What a step on the path comes to.** -/
inductive Outcome (env : Env F) (c c' : Config F) : Prop where
  | on (hat : env.CleanAt c.pc) (h : Along env c') (hplace : c'.pc.place = c.pc.place + 1)
  | off (hat : ¬ env.CleanAt c.pc) (h : Spoilt c')

/-- A clean point leads on. -/
theorem Along.next {c' : Config F} (h : Along env c) (hat : env.CleanAt c.pc)
    (hplace : c'.pc.place = c.pc.place + 1) (hle : c.pc.place ≤ 15) (hm : Moves env c c')
    (hr : c'.result = env.record (c.pc.place + 1))
    (ha : 10 < c'.pc.place → c'.audit = some env.audit) : Outcome env c c' := by
  refine .on hat ⟨by omega, hm.pending ▸ h.pending, by rw [hr, hplace], ha, ?_, hm.stays_installed h.installed⟩ hplace
  intro q hq
  rcases Nat.lt_or_ge q.place c.pc.place with hlt | hge
  · exact h.clean q hlt
  · have heq : q.place = c.pc.place := by omega
    have : q = c.pc := by
      rw [← Point.ofPlace_place (by omega : q.place ≤ 18), heq, Point.ofPlace_place (by omega)]
    exact this ▸ hat

/-- **On the path, a step goes on or spoils it.** -/
theorem Along.moves {c' : Config F} (h : Along env c) (hle : c.pc.place ≤ 15) (harr : env.arrivals c.pc = [])
    (hm : Moves env c c') : Outcome env c c' := by
  have hm' := hm
  obtain ⟨pc, pending, result, stage, audit, installed⟩ := c
  have hp : pending = [] := h.pending
  subst hp
  have hres : result = env.record pc.place := h.result
  subst hres
  cases hm with
  | raised _ name _ hne hr => exact .off (fun hat => by simp [hat.2.1 hne] at hr) (.caught name rfl)
  | unreadable _ name hpc hrep =>
    cases hpc
    exact .off (fun hat => hrep _ hat.2.2) (.caught name rfl)
  | mistaken ms _ name hpc hms hid =>
    cases hpc
    have haudit : ms = env.audit := Option.some.inj (hms.symm.trans (h.audit (by simp [Point.place])))
    exact .off (fun hat => hid (haudit ▸ hat.2.2.run_id)) (.caught name rfl)
  | installed hpc hr =>
    cases hpc
    exact h.next ⟨harr, fun _ => hr, trivial⟩ rfl hle hm' rfl (by simp [Config.install, Point.place])
  | broke p late reason hpc hstop =>
    cases hpc
    refine .off (fun hat => ?_) (.unverified rfl ?_ ?_)
    · rcases hstop with hstop | hstop
      · exact absurd hat.2.2 (Int.not_lt.2 hstop)
      · exact hstop rfl
    · cases p <;> rfl
    · cases p <;> rfl
  | entered p hpc hr hnow =>
    cases hpc
    refine h.next ⟨harr, fun _ => hr, hnow⟩ ?_ hle hm' ?_ ?_
    · cases p <;> rfl
    · cases p <;> rfl
    · cases p <;> simp [Config.goto, Point.place]
  | rechecked p _ hpc hr =>
    cases hpc
    refine h.next ⟨harr, fun _ => hr, trivial⟩ ?_ hle hm' ?_ ?_
    · cases p <;> rfl
    · cases p <;> rfl
    · cases p <;> simp [Point.place]
  | launched p _ hpc hr =>
    cases hpc
    refine h.next ⟨harr, fun _ => hr, trivial⟩ ?_ hle hm' ?_ ?_
    · cases p <;> rfl
    · cases p <;> rfl
    · cases p <;> simp [Point.place]
  | blamed p late reason pc' hpc hto hrow =>
    cases hpc
    refine .off (fun hat => by simp [hat.2.2.1] at hrow) (.failed ?_ (by simp))
    rcases hto with rfl | rfl
    · exact Nat.le_of_ble_eq_true rfl
    · cases p <;> exact Nat.le_of_ble_eq_true rfl
  | overran p hpc hlate =>
    cases hpc
    refine .off (fun hat => ?_) (.late (by simp [Point.place]) rfl)
    rcases hlate with hlate | hlate
    · cases hlate
    · exact absurd hat.2.2.2 (Int.not_lt.2 hlate)
  | passed p hpc hr hrow hnow =>
    cases hpc
    refine h.next ⟨harr, fun _ => hr, hrow, hnow⟩ ?_ hle hm' ?_ ?_
    · cases p <;> rfl
    · cases p <;> rfl
    · cases p <;> simp [Config.next, Point.place]
  | absent hpc hno =>
    cases hpc
    refine .off (fun hat => ?_)
      (.refuted (by simp [Config.goto, Point.place]) (by simp [Config.goto, Env.record, Point.place]))
    rcases hno with hno | hno
    · cases hno
    · simp [show env.present = true from hat.2.2] at hno
  | found hpc hr hyes =>
    cases hpc
    exact h.next ⟨harr, fun _ => hr, hyes⟩ rfl hle hm' rfl (by simp [Config.goto, Point.place])
  | invalid _ _ hpc hrep =>
    cases hpc
    exact .off (fun hat => hrep _ hat.2.2) (.failed (by simp [Point.place]) (by simp))
  | readOnly ms _ hpc hx =>
    cases hpc
    -- the verification was judged, so it exited with zero
    obtain ⟨-, -, hrow, -⟩ := h.clean (.judge .verification) (by simp [Point.place])
    exact absurd (Row.reason_eq_none.1 hrow).2.2.2.2 hx
  | readAll ms _ hpc hms hx =>
    cases hpc
    have haudit : env.audit = ms := by rw [Env.audit, hms]
    subst haudit
    exact h.next ⟨harr, fun hne => (hne rfl).elim, hms⟩ rfl hle hm' rfl fun _ => rfl
  | unread hpc hno =>
    cases hpc
    rw [h.audit (by simp [Point.place])] at hno
    cases hno
  | identified ms _ hpc hr hms hid =>
    cases hpc
    have haudit : ms = env.audit := Option.some.inj (hms.symm.trans (h.audit (by simp [Point.place])))
    subst haudit
    by_cases hflags : isTrue (lookup (text "final_accepted") env.audit) = true ∧
        ((crypto env.audit).map fun cs => isTrue (lookup (text "evidence_valid") cs)).getD false = true ∧
        isTrue (lookup (text "evidence_valid") env.audit) = true
    · obtain ⟨hf, hc, he⟩ := hflags
      refine h.next ⟨harr, fun _ => hr, hid, isTrue_iff.1 hf, isTrue_iff.1 he, crypto_accepted.1 hc⟩ rfl hle
        hm' ?_ fun _ => hms
      dsimp only
      rw [hf, hc, he]
      rfl
    · refine .off (fun hat => hflags ?_) (.refuted (by simp [Point.place]) hflags)
      have hv : Verified env.runId env.audit := hat.2.2
      exact ⟨isTrue_iff.2 hv.final_accepted, crypto_accepted.2 hv.crypto, isTrue_iff.2 hv.evidence_valid⟩
  | rebound _ hpc hr =>
    cases hpc
    exact h.next ⟨harr, fun _ => hr, trivial⟩ rfl hle hm' rfl fun _ => h.audit (by simp [Point.place])
  | diagnosed hpc hr =>
    cases hpc
    have haudit : audit = some env.audit := h.audit (by simp [Point.place])
    subst haudit
    by_cases hf : failures env.evidence (some env.audit) = []
    · refine h.next ⟨harr, fun _ => hr, hf⟩ rfl hle hm' ?_ fun _ => rfl
      dsimp only [Config.diagnose]
      rw [hf]
      rfl
    · refine .off (fun hat => hf hat.2.2) (.failed (by simp [Config.diagnose, Point.place]) ?_)
      dsimp only [Config.diagnose]
      simpa [Env.record, Record.initial] using hf
  | reaped hpc hr =>
    cases hpc
    by_cases hc : env.children = []
    · refine h.next ⟨harr, fun _ => hr, hc⟩ rfl hle hm' ?_ fun _ => h.audit (by simp [Point.place])
      have hrow : ∀ p, (env.child p).cleanupComplete = true := by
        intro p
        obtain ⟨-, -, hrow, -⟩ := h.clean (.judge p) (by cases p <;> simp [Point.place])
        exact (Row.reason_eq_none.1 hrow).2.1
      simp [Config.reap, Env.record, Point.place, hc, hrow]
    · exact .off (fun hat => hc hat.2.2) (.surrounded rfl (by simp [Config.reap, hc]))
  | weighed hpc hr =>
    cases hpc
    by_cases ha : (Config.weigh env
        ⟨.weigh, [], env.record Point.weigh.place, stage, audit, installed⟩).result.accepted = true
    · obtain ⟨hguard, ⟨-, hnow⟩, -⟩ := weigh_accepted.1 ha
      have hexit : (env.child .guardian).exitedBeforeDeadline = true := (Bool.and_eq_true_iff.1 hguard).2
      refine h.next ⟨harr, fun _ => hr, hexit, hnow⟩ rfl hle hm' ?_ fun _ => h.audit (by simp [Point.place])
      rw [weigh_result ha]
      rfl
    · refine .off (fun hat => ha (weigh_accepted.2 ?_)) (spoilt_weigh ha)
      obtain ⟨-, -, hrow, -⟩ := h.clean (.judge .guardian) (by simp [Point.place])
      obtain ⟨hstop, -, -, -, hcode⟩ := Row.reason_eq_none.1 hrow
      refine ⟨?_, ⟨rfl, hat.2.2.2⟩, rfl, rfl, rfl, rfl, rfl, rfl, rfl⟩
      simp [Config.guardianOk, Env.record, Point.place, hstop, hcode, hat.2.2.1]
  | handled name hpc => cases hpc; simp [Point.place] at hle
  | restored hpc | committed hpc => cases hpc; simp [Point.place] at hle
  | died hpc | rested hpc => rcases hpc with hpc | hpc <;> cases hpc <;> simp [Point.place] at hle

/-! ### Whole runs -/

/-- What is published at the end of the path. -/
def Env.published (env : Env F) : Record F :=
  (Config.commit env ⟨.commit, env.arrivals .restore, env.record 16, "", none, true⟩).result

/-- At the end of the path the record is still to be completed. -/
structure Closing (env : Env F) (c : Config F) : Prop where
  clean : env.Clean
  pc : c.pc = .commit
  restored : env.raises .restore = none
  pending : c.pending = env.arrivals .restore
  result : c.result = env.record 16
  installed : c.installed = true

/-- And then it is there. -/
structure Closed (env : Env F) (c : Config F) : Prop where
  clean : env.Clean
  pc : c.pc = .published
  restored : env.raises .restore = none
  committed : env.Writes
  result : c.result = env.published

/-- The signals noted in a run that raised before the handlers were there. -/
def Env.noted (env : Env F) (name : String) : List ℕ :=
  env.arrivals .install ++ env.arrivals (.caught name) ++ env.arrivals .restore

/-- What such a run makes of its record in `except BaseException`. -/
def Env.aborted (env : Env F) (name : String) : Record F :=
  (Config.handle env { start env with pc := .caught name } name).result

/-- And what it leaves. -/
def Env.abandoned (env : Env F) (name : String) : Record F :=
  (Config.commit env ⟨.commit, env.noted name, env.aborted name, "", none, false⟩).result

/-- **An exception has come before the handlers were there.** -/
structure Aborted (env : Env F) (name : String) (c : Config F) : Prop where
  raised : env.raises .install = some name
  installed : c.installed = false
  stage : c.stage = "preflight"
  here : match c.pc with
    | .caught n => n = name ∧ c.pending = env.arrivals .install ∧ c.result = .initial env.runId env.deadlineNs
    | .restore => c.pending = env.arrivals .install ++ env.arrivals (.caught name) ∧ c.result = env.aborted name
    | .commit => env.raises .restore = none ∧ c.pending = env.noted name ∧ c.result = env.aborted name
    | .published => env.raises .restore = none ∧ env.Writes ∧ c.result = env.abandoned name
    | .lost => True
    | _ => False

/-- **Where a run is.** -/
inductive Course (env : Env F) (c : Config F) : Prop where
  | begun (h : c = start env)
  | along (h : Along env c)
  | closing (h : Closing env c)
  | closed (h : Closed env c)
  | aborted (name : String) (h : Aborted env name c)
  | spoilt (h : Spoilt c) (hi : c.installed = true)

theorem arrive_pending (h : c.pc.place ≤ 16) : (c.arrive env).pending = c.pending ++ env.arrivals c.pc := by
  rw [Config.arrive]
  split
  next hpc => rw [hpc] at h; exact absurd h (by decide)
  next hpc => rw [hpc] at h; exact absurd h (by decide)
  next hpc => rw [hpc] at h; exact absurd h (by decide)
  next => rfl

theorem Along.arrive (h : Along env c) (harr : env.arrivals c.pc = []) : Along env (c.arrive env) := by
  have heq : c.arrive env = c := by
    obtain ⟨pc, pending, result, stage, audit, installed⟩ := c
    rw [Config.arrive]
    split
    · rfl
    · rfl
    · rfl
    · rw [harr, List.append_nil]
  rwa [heq]

theorem act_caught {name : String} (h : c.pc = .caught name) : c.act env = c.handle env name := by
  rw [Config.act, h]

theorem act_restore (h : c.pc = .restore) :
    c.act env = if (env.raises .restore).isSome then c.goto .lost else c.goto .commit := by
  rw [Config.act, h]

theorem act_commit (h : c.pc = .commit) :
    c.act env = if (env.raises .commit).isSome && !env.written then c.goto .lost else c.commit env := by
  rw [Config.act, h]

theorem act_commit_of_writes (h : c.pc = .commit) (hw : env.Writes) : c.act env = c.commit env := by
  rw [act_commit h, if_neg]
  rcases hw with hr | hw
  · simp [hr]
  · simp [hw]

theorem Along.pc_eq (h : Along env c) {k : ℕ} (hk : c.pc.place = k) : c.pc = Point.ofPlace k := by
  have := h.place_le
  rw [← hk, Point.ofPlace_place (by omega)]

theorem Along.closing (h : Along env c) (h16 : c.pc.place = 16) (hr : env.raises .restore = none) :
    Closing env (c.step env) := by
  have hpc : c.pc = .restore := h.pc_eq h16
  rw [Config.step, act_restore (by rwa [arrive_pc]), hr]
  refine ⟨fun q hq => h.clean q (by omega), rfl, hr, ?_, arrive_result.trans (h16 ▸ h.result),
    arrive_installed.trans h.installed⟩
  exact (arrive_pending h.place_le).trans (by rw [h.pending, hpc, List.nil_append])

theorem Closing.closed (h : Closing env c) (hw : env.Writes) : Closed env (c.step env) := by
  have harr : c.arrive env = c := by rw [Config.arrive, h.pc]
  rw [Config.step, harr, act_commit_of_writes h.pc hw]
  refine ⟨h.clean, rfl, h.restored, hw, ?_⟩
  rw [Env.published]
  show (c.commit env).result = _
  rw [Config.commit, Config.commit, h.pending, h.result, h.pc]

/-- The first step installs the handlers, unless it raises. -/
theorem step_start (hr : env.raises .install = none) : (start env).step env =
    { start env with pc := .head .guardian, pending := env.arrivals .install, installed := true } := by
  have hact : ∀ c : Config F, c.pc = .install → c.act env = c.install := by
    intro c hc
    rw [Config.act, hc]
    dsimp only
    rw [Config.call, hc, hr]
  exact hact _ rfl

theorem along_step_start (hr : env.raises .install = none) (harr : env.arrivals .install = []) :
    Along env ((start env).step env) := by
  rw [step_start hr, harr]
  refine ⟨(show 1 ≤ 16 by decide), rfl, rfl, fun h => absurd h (show ¬ 10 < 1 by decide), fun q hq => ?_, rfl⟩
  have hq : q.place = 0 := Nat.lt_one_iff.1 hq
  rw [← Point.ofPlace_place (by omega : q.place ≤ 18), hq]
  exact ⟨harr, fun _ => hr, trivial⟩

theorem step_start_caught {name : String} (hr : env.raises .install = some name) : (start env).step env =
    { start env with pc := .caught name, pending := env.arrivals .install } := by
  have hact : ∀ c : Config F, c.pc = .install → c.act env = c.goto (.caught name) := by
    intro c hc
    rw [Config.act, hc]
    dsimp only
    rw [Config.call, hc, hr]
  exact hact _ rfl

theorem aborted_step_start {name : String} (hr : env.raises .install = some name) :
    Aborted env name ((start env).step env) := by
  rw [step_start_caught hr]
  exact ⟨hr, rfl, rfl, rfl, rfl, rfl⟩

/-- **It goes on to the record.** -/
theorem Aborted.step {name : String} (h : Aborted env name c) : Aborted env name (c.step env) := by
  obtain ⟨pc, pending, result, stage, audit, installed⟩ := c
  obtain ⟨hr, hi, hs, hhere⟩ := h
  dsimp only at hi hs
  subst hi hs
  cases pc with
  | caught n =>
    obtain ⟨rfl, hp, hres⟩ := hhere
    dsimp only at hp hres
    subst hp hres
    exact ⟨hr, rfl, rfl, rfl, rfl⟩
  | restore =>
    obtain ⟨hp, hres⟩ := hhere
    dsimp only at hp hres
    subst hp hres
    rw [Config.step, act_restore arrive_pc]
    cases hrestore : env.raises .restore with
    | some _ => exact ⟨hr, rfl, rfl, trivial⟩
    | none => exact ⟨hr, rfl, rfl, hrestore, rfl, rfl⟩
  | commit =>
    obtain ⟨hrestore, hp, hres⟩ := hhere
    dsimp only at hp hres
    subst hp hres
    rw [Config.step, act_commit arrive_pc]
    split
    · exact ⟨hr, rfl, rfl, trivial⟩
    next hw => exact ⟨hr, rfl, rfl, hrestore, writes_of_not hw, rfl⟩
  | published => exact ⟨hr, rfl, rfl, hhere⟩
  | lost => exact ⟨hr, rfl, rfl, trivial⟩
  | _ => exact hhere.elim

/-- **Where a step goes to.** -/
theorem Course.step (h : Course env c) : Course env (c.step env) := by
  cases h with
  | begun h =>
    subst h
    cases hr : env.raises .install with
    | some name => exact .aborted name (aborted_step_start hr)
    | none =>
      by_cases harr : env.arrivals .install = []
      · exact .along (along_step_start hr harr)
      · rw [step_start hr]
        exact .spoilt (.signalled (show 1 ≤ 15 by decide) harr) rfl
  | along h =>
    have hi : (c.arrive env).installed = true := arrive_installed.trans h.installed
    have hm : Moves env (c.arrive env) ((c.arrive env).act env) := moves _
    have hi' := hm.stays_installed hi
    rcases Nat.lt_or_eq_of_le h.place_le with hlt | h16
    · by_cases harr : env.arrivals c.pc = []
      · have harr' : env.arrivals (c.arrive env).pc = [] := by rwa [arrive_pc]
        rcases (h.arrive harr).moves (by rw [arrive_pc]; omega) harr' hm with ⟨-, h, -⟩ | ⟨-, h⟩
        · exact .along h
        · exact .spoilt h hi'
      · -- the signal is seen by the verdict
        have hp : (c.arrive env).pending ≠ [] := by
          rw [arrive_pending h.place_le]
          exact fun hnil => harr (List.append_eq_nil_iff.1 hnil).2
        exact .spoilt (Spoilt.moves (.signalled (by rw [arrive_pc]; omega) hp) hi hm) hi'
    · cases hr : env.raises .restore with
      | none => exact .closing (h.closing h16 hr)
      | some name =>
        refine .spoilt ?_ hi'
        rw [Config.step, act_restore (by rw [arrive_pc, h.pc_eq h16]; rfl), hr]
        exact .lost rfl
  | closing h =>
    by_cases hlost : ((env.raises .commit).isSome && !env.written) = true
    · have hi : (c.arrive env).installed = true := arrive_installed.trans h.installed
      refine .spoilt ?_ ((moves _).stays_installed hi)
      rw [Config.step, act_commit (by rw [arrive_pc, h.pc]), if_pos hlost]
      exact .lost rfl
    · exact .closed (h.closed (writes_of_not hlost))
  | closed h =>
    have hrest : c.step env = c := by
      rw [Config.step, Config.arrive, h.pc]
      dsimp only
      rw [Config.act, h.pc]
    rw [hrest]
    exact .closed h
  | aborted name h => exact .aborted name h.step
  | spoilt h hi =>
    have hi : (c.arrive env).installed = true := arrive_installed.trans hi
    exact .spoilt (h.arrive.moves hi (moves _)) ((moves _).stays_installed hi)

/-- **Every run is somewhere.** -/
theorem course (env : Env F) (n : ℕ) : Course env (config env n) := by
  induction n with
  | zero => exact .begun rfl
  | succ n ih =>
    rw [config_succ]
    exact ih.step

/-- **A clean environment leads to the verdict.** -/
theorem along_of_clean (h : env.Clean) {n : ℕ} (hpos : 1 ≤ n) (hn : n ≤ 16) :
    Along env (config env n) ∧ (config env n).pc.place = n := by
  induction n, hpos using Nat.le_induction with
  | base =>
    obtain ⟨harr, hr, -⟩ := h .install (by decide)
    have hr := hr (by decide)
    refine ⟨along_step_start hr harr, ?_⟩
    show ((start env).step env).pc.place = 1
    rw [step_start hr]
    rfl
  | succ n _ ih =>
    obtain ⟨halong, hplace⟩ := ih (by omega)
    have hat := h (config env n).pc (by omega)
    rw [config_succ, Config.step]
    rcases (halong.arrive hat.1).moves (by rw [arrive_pc]; omega) (by rw [arrive_pc]; exact hat.1) (moves _) with
      ⟨-, h', hplace'⟩ | ⟨hno, -⟩
    · exact ⟨h', by rw [hplace', arrive_pc, hplace]⟩
    · rw [arrive_pc] at hno
      exact absurd hat hno

/-- **Then its record is left**, unless one of the last calls raises before. -/
theorem publishes_of_clean (h : env.Clean) (hr : env.raises .restore = none) (hw : env.Writes) :
    Publishes env env.published := by
  obtain ⟨halong, hplace⟩ := along_of_clean h (by decide) (Nat.le_refl 16)
  have hclosed : Closed env (config env 18) := by
    rw [config_succ, config_succ]
    exact (halong.closing hplace hr).closed hw
  exact ⟨18, hclosed.pc, hclosed.result⟩

/-! ### A run that is interrupted -/

/-- **A rejection is left without a reason**: an exception comes before the
handlers are installed, an interrupt ends `except BaseException` before it has
given one, and no signal was noted. -/
structure Interrupted (env : Env F) : Prop where
  raised : ∃ name, env.raises .install = some name ∧ env.noted name = []
  handled : env.handled < 2
  restored : env.raises .restore = none
  written : env.Writes

theorem aborted_accepted (name : String) : (env.aborted name).accepted = false := by
  refine handle_keeps (P := fun r => r.accepted = false) (fun f hf r hr => ?_) rfl
  simp only [Config.handling, List.mem_cons, List.not_mem_nil, or_false] at hf
  rcases hf with rfl | rfl | rfl | rfl
  · rfl
  · exact hr
  · exact hr
  · exact hr

/-- The second statement gives the reason. -/
theorem aborted_primaryFailure (name : String) : (env.aborted name).primaryFailure = none ↔ env.handled < 2 := by
  have hstatements : env.aborted name = ((Config.handling name "preflight").take env.handled).foldl (fun r f => f r)
      (.initial env.runId env.deadlineNs) := rfl
  rw [hstatements]
  rcases env.handled with _ | _ | n
  · simp [Record.initial]
  · simp [Config.handling, Record.initial]
  · have hkeep : (((Config.handling name "preflight").take (n + 2)).foldl (fun r f => f r)
        (Record.initial env.runId env.deadlineNs : Record F)).primaryFailure = some "collector_exception" := by
      rw [Config.handling, List.take_succ_cons, List.take_succ_cons, List.foldl_cons, List.foldl_cons]
      refine foldl_keeps (P := fun r => r.primaryFailure = some "collector_exception") (fun f hf r hr => ?_) rfl
      have hf := List.mem_of_mem_take hf
      rw [List.mem_cons, List.mem_singleton] at hf
      rcases hf with rfl | rfl
      · exact hr
      · exact hr
    rw [hkeep]
    simp

/-- **What is left of it** was rejected, and has no reason only where it was
interrupted. -/
theorem Aborted.of_published {name : String} (h : Aborted env name c) (hpc : c.pc = .published) :
    c.result.accepted = false ∧ (c.result.primaryFailure = none → Interrupted env) := by
  have hhere := h.here
  rw [hpc] at hhere
  obtain ⟨hrestore, hw, hres⟩ := hhere
  rw [hres, Env.abandoned]
  refine ⟨?_, fun hnone => ?_⟩
  · rw [Bool.eq_false_iff]
    intro ha
    have ha' : (env.aborted name).accepted = true := (commit_accepted.1 ha).1
    rw [aborted_accepted] at ha'
    cases ha'
  · rw [commit_primaryFailure] at hnone
    dsimp only at hnone
    split at hnone
    next hp => exact ⟨⟨name, h.raised, hp⟩, (aborted_primaryFailure name).1 hnone, hrestore, hw⟩
    next =>
      rw [Option.or_eq_none_iff] at hnone
      cases hnone.2

/-- **And such a record there is.** -/
theorem Interrupted.publishes (h : Interrupted env) :
    ∃ r, Publishes env r ∧ r.accepted = false ∧ r.primaryFailure = none := by
  obtain ⟨⟨name, hr, hnoted⟩, hhandled, hrestore, hw⟩ := h
  have h1 : Aborted env name (config env 1) := aborted_step_start hr
  have hpc1 : (config env 1).pc = .caught name := congrArg Config.pc (step_start_caught hr)
  have hpc2 : (config env 2).pc = .restore := by
    rw [config_succ, Config.step, act_caught (arrive_pc.trans hpc1)]
    rfl
  have hpc3 : (config env 3).pc = .commit := by
    rw [config_succ, Config.step, act_restore (arrive_pc.trans hpc2), hrestore]
    rfl
  have hpc4 : (config env 4).pc = .published := by
    rw [config_succ, Config.step, act_commit_of_writes (arrive_pc.trans hpc3) hw]
    rfl
  have h4 : Aborted env name (config env 4) := by
    rw [config_succ, config_succ, config_succ]
    exact h1.step.step.step
  refine ⟨_, ⟨4, hpc4, rfl⟩, (h4.of_published hpc4).1, ?_⟩
  have hhere := h4.here
  rw [hpc4] at hhere
  rw [hhere.2.2, Env.abandoned, commit_primaryFailure, if_pos hnoted]
  exact (aborted_primaryFailure name).2 hhandled

/-! ### What is published -/

/-- **What is published** is the record of the path, or was rejected; and
then it has a reason, but for an interrupt. -/
theorem publishes_cases {r : Record F} (h : Publishes env r) :
    (env.Clean ∧ env.raises .restore = none ∧ env.Writes ∧ r = env.published) ∨
      (r.accepted = false ∧ (r.primaryFailure = none → Interrupted env)) := by
  obtain ⟨n, hpc, rfl⟩ := h
  cases course env n with
  | begun h =>
    rw [h] at hpc
    cases hpc
  | along h =>
    have := h.place_le
    rw [hpc] at this
    exact absurd this (by decide)
  | closing h =>
    rw [h.pc] at hpc
    cases hpc
  | closed h => exact .inl ⟨h.clean, h.restored, h.committed, h.result⟩
  | aborted name h => exact .inr (h.of_published hpc)
  | spoilt h _ =>
    obtain ⟨ha, hp⟩ := h.of_published hpc
    exact .inr ⟨ha, fun hnone => absurd hnone hp⟩

end Collect

end Bench

end ZkRuntime
