import GoldenRun.Proofs.CommandLine.TimeLimit
import GoldenRun.Proofs.Config.Grammar
import GoldenRun.Proofs.Execution.Lifetime
import GoldenRun.Proofs.ExitStatus
import GoldenRun.Proofs.Run.Script

/-!
# Time limits and their timers

A time limit comes from a configuration file or from the command line, and goes with every request
of a run.  It is a natural number of milliseconds.  The timer that it arms keeps it only up to the
longest delay: a limit beyond that is over at once, before any shorter one.

* `killDelay?_of_natural`: the timer of each natural number
* `IsLimit.natural`: what may be set is a natural number
* `Run.isLimit_of_exchange`: the requests of a run bring a limit that was set
* `timer_keeps_limit_iff`: which limits are kept, and which of two is over first
-/

namespace GoldenRun

open GoldenRun.Number GoldenRun.CommandLine

/-! ## Timers -/

/-- The timer that a natural number arms. -/
theorem killDelay?_of_natural {x : Binary64} {n : ℕ} (h : x.toRat? = some (n : ℚ)) :
    killDelay? (some x) =
      if n = 0 then none else if n ≤ longestDelay then some n else some 1 := by
  obtain ⟨hvalue, hsign⟩ := x.toRat?_eq_natCast_iff.mp h
  cases x with
  | nan => cases hvalue
  | infinity s => cases hvalue
  | finite s m e normal =>
    by_cases hm : m = 0
    · subst hm
      have hn : n = 0 := by simpa [Binary64.toRat?, eq_comm] using h
      cases s <;> simp [killDelay?, hn]
    · obtain rfl : s = false := by simpa [Binary64.isNegative, hm] using hsign
      have hn : n ≠ 0 := Binary64.ne_zero_of_wholeMagnitude hm hvalue
      -- A whole number is beyond the longest delay only if it is greater: it has no fraction.
      rcases Binary64.wholeMagnitude?_eq_some_iff.mp hvalue with ⟨he, rfl⟩ | ⟨he, hmantissa⟩
      · have hneg : ¬ e < 0 := Int.not_lt.mpr he
        simp only [killDelay?, hm, if_false, if_pos he, hneg, false_and, and_false, or_false, hn,
          false_or, Nat.pow_eq]
        split_ifs <;> first | rfl | omega
      · have hpos : 0 < 2 ^ (-e).toNat := Nat.two_pow_pos (-e).toNat
        have hdiv : m / 2 ^ (-e).toNat = n := by rw [hmantissa, Nat.mul_div_cancel n hpos]
        have hmod : m % 2 ^ (-e).toNat = 0 := by rw [hmantissa, Nat.mul_mod_left]
        simp only [killDelay?, hm, if_false, if_neg (Int.not_le.mpr he), Nat.pow_eq, hdiv, hmod, hn,
          ne_eq, not_true_eq_false, and_false, or_false, false_or]
        split_ifs <;> first | rfl | omega

theorem timer_of_natural {request : Request} {x : Binary64} {n : ℕ}
    (hrequest : request.timeout = some x) (h : x.toRat? = some (n : ℚ)) :
    (Watch.start request).timer =
      if n = 0 then none else if n ≤ 2147483647 then some n else some 1 := by
  have hlongest : longestDelay = 2147483647 := rfl
  rw [← hlongest, ← killDelay?_of_natural h, ← hrequest]
  rfl

/-! ## Limits that may be set -/

/-- `IsLimit x`: `x` may be set as a time limit. -/
inductive IsLimit (x : Binary64) : Prop where
  /-- A configuration file sets it. -/
  | file (h : Schema.complaints .timeout (.number x) = [])
  /-- The flag on the command line sets it. -/
  | flag {text : String} (h : milliseconds? text = some x)

/-- A limit is a natural number. -/
theorem IsLimit.natural {x : Binary64} (h : IsLimit x) : ∃ n : ℕ, x.toRat? = some (n : ℚ) := by
  cases h with
  | file h =>
    obtain ⟨y, hy, hnatural⟩ := Schema.complaints_eq_nil_iff.mp h
    cases hy
    exact hnatural
  | flag h => exact (milliseconds?_eq_some_iff.mp h).2

/-! ## Limits of runs -/

namespace CommandLine.Order

variable {order : RunOrder} {topic : Topic} {operands unread args : List String}

theorem timeout_of_ofTopic (h : ofTopic topic operands unread = .run order) :
    ∃ a : Arguments, order.timeout = (a.value? timeoutFlag).bind milliseconds? := by
  unfold ofTopic at h
  split at h
  · next interruption _ => cases interruption <;> cases h
  · next a _ =>
    split at h
    · cases h
    · split at h
      · cases h
      · unfold ofArguments at h
        split at h
        · split at h
          · cases h
          · cases h
            exact ⟨a, rfl⟩
        · cases h
        · cases h

/-- A limit on the command line is one that the flag takes. -/
theorem timeout_of_read (h : read args = .run order) :
    ∃ a : Arguments, order.timeout = (a.value? timeoutFlag).bind milliseconds? := by
  unfold read at h
  split at h
  · next interruption _ => cases interruption <;> cases h
  · next a _ =>
    have hdefault : ∀ {o : Order}, (if a.unknown.any helpFlag.isWritten then Order.help none false
        else ofTopic .run a.operands a.unknown) = o → o = .run order →
          ∃ a : Arguments, order.timeout = (a.value? timeoutFlag).bind milliseconds? := by
      rintro o rfl ho
      split at ho
      · cases ho
      · exact timeout_of_ofTopic ho
    dsimp only at h
    split at h
    · exact hdefault rfl h
    · split at h
      · exact timeout_of_ofTopic h
      · split at h
        · next name operands _ _ _ =>
          unfold ofHelp at h
          split at h
          · cases h
          · split at h
            · cases h
            · split at h <;> cases h
        · exact hdefault rfl h

end CommandLine.Order

/-- The time limit of a configuration that is loaded may be set. -/
theorem Config.isLimit_of_load {w : Workspace} {root : String} {named : Option String} {c : Config}
    (h : Config.load w root named = .ok c) : IsLimit c.timeout := by
  obtain ⟨⟨s, hsound, rfl⟩, -⟩ := Config.load_eq_ok h
  have hlimit : ∀ x : Binary64, x.isWhole = true ∧ x.isNegative = false → IsLimit x := by
    intro x hx
    refine .file ?_
    rw [Schema.complaints, List.map_eq_nil_iff, Schema.wrongLimit_eq_nil]
    exact ⟨x, rfl, hx⟩
  show IsLimit (s.timeout.getD Config.default.timeout)
  cases htimeout : s.timeout with
  | none => exact hlimit _ (by decide +kernel)
  | some x => exact hlimit x (hsound.timeout x htimeout)

section Runs

variable {σ : Type} {order : RunOrder} {runner : Runner σ} {w : Workspace} {run : Run σ}
  {selection : Option (List Kind)} {s : Surroundings (Progress σ)} {args : List String}

/-- Each request of a run brings the limit of its configuration.  It is that of the command line, or
else that of the file, and may be set. -/
theorem Run.isLimit_of_exchange (hread : Order.read args = .run order)
    (hbegin : order.begin runner w = .ok run) {e : Exchange} (he : e ∈ run.exchanges selection s) :
    ∃ config, Config.load w (w.fixturesRoot order.root) order.config = .ok config ∧
      e.request.timeout = some (order.timeout.getD config.timeout) ∧
      IsLimit (order.timeout.getD config.timeout) := by
  obtain ⟨step, -, hrequest, -⟩ := exists_step_of_mem_exchanges he
  obtain ⟨-, -, htimeout⟩ := request?_place hrequest
  obtain ⟨config, catalog, hload, -, -, rfl⟩ := RunOrder.begin_eq_ok_iff.mp hbegin
  refine ⟨config, hload, htimeout, ?_⟩
  obtain ⟨a, ha⟩ := Order.timeout_of_read hread
  cases hflag : order.timeout with
  | none => exact Config.isLimit_of_load hload
  | some x =>
    rw [hflag] at ha
    obtain ⟨text, -, hx⟩ := Option.bind_eq_some_iff.mp ha.symm
    exact .flag hx

/--
**A time limit is kept exactly if it is no longer than 2147483647 milliseconds.**

* Each limit that may be set is a natural number.  Zero arms no timer; any other arms one, with the
  limit for its delay exactly if it is not too long, and with a delay of one millisecond if it is.
* So of two limits the greater one ends no sooner, unless it is too long and the other is not.
* Every request of a run brings a limit that was set: that of the command line, or else that of the
  configuration.
-/
theorem timer_keeps_limit_iff :
    (∀ x y, IsLimit x → IsLimit y → ∃ n m : ℕ, x.toRat? = some (n : ℚ) ∧ y.toRat? = some (m : ℚ) ∧
      ∀ request request' : Request, request.timeout = some x → request'.timeout = some y →
        ((Watch.start request).timer = none ↔ n = 0) ∧
        (0 < n → ((Watch.start request).timer = some n ↔ n ≤ 2147483647)) ∧
        (2147483647 < n → (Watch.start request).timer = some 1) ∧
        (0 < n → n ≤ m → ∃ delay delay', (Watch.start request).timer = some delay ∧
          (Watch.start request').timer = some delay' ∧
          (delay ≤ delay' ↔ m ≤ 2147483647 ∨ 2147483647 < n ∨ n = 1))) ∧
    ∀ {args : List String} {order : RunOrder} {runner : Runner σ} {w : Workspace} {run : Run σ}
      {selection : Option (List Kind)} {s : Surroundings (Progress σ)} {e : Exchange},
      Order.read args = .run order → order.begin runner w = .ok run →
      e ∈ run.exchanges selection s →
      ∃ config, Config.load w (w.fixturesRoot order.root) order.config = .ok config ∧
        e.request.timeout = some (order.timeout.getD config.timeout) ∧
        IsLimit (order.timeout.getD config.timeout) := by
  refine ⟨?_, fun hread hbegin he => Run.isLimit_of_exchange hread hbegin he⟩
  intro x y hx hy
  obtain ⟨n, hn⟩ := hx.natural
  obtain ⟨m, hm⟩ := hy.natural
  refine ⟨n, m, hn, hm, fun request request' hrequest hrequest' => ?_⟩
  rw [timer_of_natural hrequest hn, timer_of_natural hrequest' hm]
  refine ⟨?_, fun hpos => ?_, fun hlong => ?_, fun hpos hle => ?_⟩
  · split_ifs <;> simp_all
  · rw [if_neg hpos.ne']
    split_ifs with hshort
    · simp [hshort]
    · simp only [Option.some.injEq, hshort, iff_false]
      omega
  · rw [if_neg (show n ≠ 0 by omega), if_neg (show ¬ n ≤ 2147483647 by omega)]
  · have hpos' : m ≠ 0 := by omega
    rw [if_neg hpos.ne', if_neg hpos']
    by_cases hshort : n ≤ 2147483647
    · by_cases hshort' : m ≤ 2147483647
      · exact ⟨n, m, if_pos hshort, if_pos hshort', iff_of_true hle (.inl hshort')⟩
      · refine ⟨n, 1, if_pos hshort, if_neg hshort', ?_⟩
        omega
    · have hlong' : ¬ m ≤ 2147483647 := by omega
      refine ⟨1, 1, if_neg hshort, if_neg hlong', ?_⟩
      omega

end Runs

/-- A request that is killed after the given time. -/
def timedRequest (milliseconds : Nat) : Request :=
  { limitedRequest with timeout := some (.ofNat milliseconds) }

/-- An order for the trace suite with a limit of more than a timer keeps. -/
def timedOrder : RunOrder := { traceOrder "/bin/tool" with timeout := some (.ofNat 4294967296) }

theorem exists_exchange_timedOrder : ∃ run, timedOrder.begin contentRunner traceTree = .ok run ∧
    ∃ e, e ∈ run.exchanges (some [.trace]) ⟨traceTree, { runner := () }⟩ := by
  have hroot : traceTree.fixturesRoot timedOrder.root = "/tree" := by decide +kernel
  have hload : Catalog.load traceTree (traceTree.fixturesRoot timedOrder.root) =
      .ok ⟨"/tree", [], [], [.describe "/tree" .trace "t"]⟩ := by
    rw [hroot]
    exact load_traceTree
  refine ⟨_, RunOrder.begin_eq_ok_iff.mpr ⟨Settings.resolve traceTree.home {}, _,
    by decide +kernel, by decide +kernel, hload, rfl⟩, ?_⟩
  exact List.exists_mem_of_length_pos (by decide +kernel)

/-- A configuration file sets half a second, and the command line more than a timer keeps. -/
theorem timer_keeps_limit_iff_timedRequest :
    IsLimit (.ofNat 500) ∧ IsLimit (.ofNat 4294967296) ∧
      (Watch.start (timedRequest 500)).timer = some 500 ∧
      ∃ run, timedOrder.begin contentRunner traceTree = .ok run ∧
        ∃ e ∈ run.exchanges (some [.trace]) ⟨traceTree, { runner := () }⟩,
          e.request.timeout = some (.ofNat 4294967296) ∧
          (Watch.start e.request).timer = some 1 := by
  obtain ⟨hlimits, hruns⟩ := timer_keeps_limit_iff (σ := Unit)
  have hread : Order.read ["/bin/tool", "--suite", "trace", "--timeout", "0x100000000"] =
      .run timedOrder := by decide +kernel
  obtain ⟨run, hbegin, e, he⟩ := exists_exchange_timedOrder
  obtain ⟨config, -, hrequest, hlong⟩ := hruns hread hbegin he
  have hshort : IsLimit (.ofNat 500) := .file (by decide +kernel)
  obtain ⟨n, m, hn, hm, htimers⟩ := hlimits _ _ hshort hlong
  obtain ⟨m', _, hm', _, htimers'⟩ := hlimits _ _ hlong hlong
  obtain rfl : 500 = n := by
    have hvalue := (Binary64.ofNat_isNearest 500).eq_natCast (by norm_num)
    exact_mod_cast Option.some.inj (hvalue.symm.trans hn)
  obtain rfl : 4294967296 = m' := by
    have hvalue := (Binary64.ofNat_isNearest 4294967296).eq_natCast (by norm_num)
    exact_mod_cast Option.some.inj (hvalue.symm.trans hm')
  obtain ⟨-, hkept, -, -⟩ := htimers (timedRequest 500) e.request rfl hrequest
  obtain ⟨-, -, hcut, -⟩ := htimers' e.request e.request hrequest hrequest
  exact ⟨hshort, hlong, (hkept (by decide)).mpr (by decide), run, hbegin, e, he, hrequest,
    hcut (by decide)⟩

/-- **A limit of one millisecond more is over at once.** -/
theorem longer_limit_is_over_first :
    (∀ limit ∈ [2147483647, 2147483648], Schema.complaints .timeout (.number (.ofNat limit)) = []) ∧
      milliseconds? "2147483647" = some (.ofNat 2147483647) ∧
      milliseconds? "2147483648" = some (.ofNat 2147483648) ∧
      (Watch.start (timedRequest 2147483647)).timer = some 2147483647 ∧
      (Watch.start (timedRequest 2147483648)).timer = some 1 := by
  decide +kernel

end GoldenRun
