import LatteCode.Lib.Checked
import LatteCode.Headless.Request
/- The context policy of a profile on 64-bit words, and when its compaction trigger is exact. -/

namespace LatteCode.Headless.Profile
open Outcome

structure CompactionPolicy where
  strategy : CompactionStrategy
  triggerRatio : UInt8
  retainRatio : UInt8
  summaryPromptId : String
  maxSummarySourceBytes : UInt64

structure TokenEstimateParams where
  bytesPerToken : UInt64

structure ContextPolicy where
  maxRequestBytes : UInt64
  maxInputBytes : UInt64
  reservedOutputBytes : UInt64
  contextCapBytes : UInt64
  maxToolRounds : Option UInt32
  providerTimeoutMs : UInt64
  compaction : CompactionPolicy
  tokenEstimate : TokenEstimateParams

structure ContextUsage where
  requestBudgetBytes : UInt64
  usedBytes : UInt64
  remainingBytes : UInt64
  contextCapBytes : UInt64
  estimatedUsedTokens : UInt64
  estimatedBudgetTokens : UInt64
  estimatedRemainingTokens : UInt64
  discardedSegments : UInt64
  compactionStrategy : CompactionStrategy
  triggerRatio : UInt8
  proactiveCompactionDue : Bool
deriving DecidableEq

def TokenEstimateParams.estimateTokens (self : TokenEstimateParams) (bytes : UInt64) : UInt64 :=
  Checked.divCeil bytes self.bytesPerToken

namespace CompactionPolicy

/-- The checks of an enabled compaction. -/
def validateEnabled (self : CompactionPolicy) : Except String Unit := do
  ensure (¬ (self.triggerRatio = 0 ∨ self.triggerRatio > 100))
    "compaction trigger_ratio must be in 1..=100 when enabled"
  ensure (¬ (self.retainRatio = 0 ∨ self.retainRatio > 80)) "compaction retain_ratio must be in 1..=80 when enabled"
  ensure (self.maxSummarySourceBytes ≠ 0) "compaction max_summary_source_bytes must be nonzero"
  ensure ((trim self.summaryPromptId).isEmpty = false) "compaction summary_prompt_id must not be empty"

end CompactionPolicy

namespace ContextPolicy

variable (self : ContextPolicy)

def validate : Except String Unit := do
  ensure (¬ (self.maxRequestBytes = 0 ∨ self.maxInputBytes = 0 ∨ self.reservedOutputBytes ≥ self.maxInputBytes ∨
      self.contextCapBytes = 0))
    ("max_request_bytes/context cap must be nonzero and reserved output must be smaller than " ++ "input budget")
  ensure (self.providerTimeoutMs ≠ 0) "provider_timeout_ms must be nonzero"
  ensure (self.maxToolRounds ≠ some 0) "max_tool_rounds must be at least 1 when set"
  ensure (self.tokenEstimate.bytesPerToken ≠ 0) "bytes_per_token must be nonzero"
  if self.compaction.strategy ≠ .off then self.compaction.validateEnabled else .ok ()

def requestBudgetBytes : UInt64 :=
  min self.maxRequestBytes (Checked.saturatingSub self.maxInputBytes self.reservedOutputBytes)

/-- Whether the estimates reach the trigger ratio; nothing, when a product overflows. -/
def proactiveCompactionDue (estimatedUsed estimatedBudget : UInt64) : Option Bool :=
  if self.compaction.strategy ≠ .off ∧ 0 < self.compaction.triggerRatio then do
    let used ← Checked.mul estimatedUsed 100
    let wall ← Checked.mul estimatedBudget self.compaction.triggerRatio.toUInt64
    some (decide (used ≥ wall))
  else some false

/-- `usage`; nothing, when its arithmetic overflows. -/
def usage (usedBytes discardedSegments : UInt64) : Option ContextUsage := do
  let budget := self.requestBudgetBytes
  let remaining := Checked.saturatingSub budget usedBytes
  let estimatedUsed := self.tokenEstimate.estimateTokens usedBytes
  let estimatedBudget := self.tokenEstimate.estimateTokens budget
  let estimatedRemaining := self.tokenEstimate.estimateTokens remaining
  let due ← self.proactiveCompactionDue estimatedUsed estimatedBudget
  some ⟨budget, usedBytes, remaining, self.contextCapBytes, estimatedUsed, estimatedBudget, estimatedRemaining,
    discardedSegments, self.compaction.strategy, self.compaction.triggerRatio, due⟩

/-! ## The same over the natural numbers -/

/-- The budget that the bounds of the policy leave. -/
def budget : Nat := min self.maxRequestBytes.toNat (self.maxInputBytes.toNat - self.reservedOutputBytes.toNat)

/-- Tokens, rounded up. -/
def tokens (bytes : Nat) : Nat := (bytes + self.tokenEstimate.bytesPerToken.toNat - 1) / self.tokenEstimate.bytesPerToken.toNat

def Due (bytes : Nat) : Prop := self.compaction.strategy ≠ .off ∧
  self.compaction.triggerRatio.toNat * self.tokens self.budget ≤ 100 * self.tokens bytes

/-- Both products of the trigger fit a word. -/
def Fits (bytes : Nat) : Prop := self.compaction.strategy ≠ .off →
  100 * self.tokens bytes < 2 ^ 64 ∧ self.compaction.triggerRatio.toNat * self.tokens self.budget < 2 ^ 64

variable {self}

theorem tokens_mono {less more : Nat} (below : less ≤ more) : self.tokens less ≤ self.tokens more := by
  apply Nat.div_le_div_right
  omega

theorem Due.mono {less more : Nat} (below : less ≤ more) (due : self.Due less) : self.Due more :=
  ⟨due.1, Nat.le_trans due.2 (Nat.mul_le_mul_left 100 (tokens_mono below))⟩

theorem Fits.less {less more : Nat} (below : less ≤ more) (fits : self.Fits more) : self.Fits less := by
  intro on
  obtain ⟨used, wall⟩ := fits on
  exact ⟨Nat.lt_of_le_of_lt (Nat.mul_le_mul_left 100 (tokens_mono below)) used, wall⟩

@[simp] theorem toNat_requestBudgetBytes : self.requestBudgetBytes.toNat = self.budget := by
  rw [budget, ← Checked.toNat_saturatingSub]
  show (if self.maxRequestBytes ≤ _ then self.maxRequestBytes else _ : UInt64).toNat = _
  split
  case isTrue below => rw [Nat.min_eq_left (UInt64.le_iff_toNat_le.mp below)]
  case isFalse above =>
    rw [UInt64.le_iff_toNat_le, Nat.not_le] at above
    rw [Nat.min_eq_right (Nat.le_of_lt above)]

variable {usedBytes discardedSegments : UInt64} {found : ContextUsage}

/-- What acceptance says about the arithmetic. -/
theorem validate_positive (accepted : self.validate = .ok ()) : 0 < self.budget ∧
    0 < self.tokenEstimate.bytesPerToken.toNat ∧
      (self.compaction.strategy ≠ .off → 0 < self.compaction.triggerRatio) := by
  have nonzero : ∀ {word : UInt64}, word ≠ 0 → 0 < word.toNat := fun other =>
    Nat.pos_of_ne_zero fun same => other (UInt64.toNat_inj.mp same)
  simp only [validate, bind_ok, ensure_ok] at accepted
  obtain ⟨_, bounds, _, _, _, _, _, positive, enabled⟩ := accepted
  simp only [not_or] at bounds
  refine ⟨?_, nonzero positive, fun on => ?_⟩
  · have request := nonzero bounds.1
    have reserved := bounds.2.2.1
    rw [ge_iff_le, UInt64.le_iff_toNat_le] at reserved
    rw [budget]
    omega
  · rw [if_pos on] at enabled
    simp only [CompactionPolicy.validateEnabled, bind_ok, ensure_ok, not_or] at enabled
    obtain ⟨_, ratio, _⟩ := enabled
    exact UInt8.pos_iff_ne_zero.mpr ratio.1

theorem toNat_estimateTokens (accepted : self.validate = .ok ()) (bytes : UInt64) :
    (self.tokenEstimate.estimateTokens bytes).toNat = self.tokens bytes.toNat :=
  Checked.toNat_divCeil (validate_positive accepted).2.1

/-- The trigger is computed exactly when its products fit, and then is the one of the natural numbers. -/
theorem proactiveCompactionDue_some (accepted : self.validate = .ok ()) {due : Bool} :
    self.proactiveCompactionDue (self.tokenEstimate.estimateTokens usedBytes)
        (self.tokenEstimate.estimateTokens self.requestBudgetBytes) = some due ↔
      self.Fits usedBytes.toNat ∧ (due = true ↔ self.Due usedBytes.toNat) := by
  have armed := (validate_positive accepted).2.2
  have hundred : (100 : UInt64).toNat = 100 := rfl
  rw [proactiveCompactionDue]
  split
  case isTrue on =>
    simp only [Option.bind_eq_bind, Option.bind_eq_some_iff, Checked.mul_eq_some, Option.some.injEq,
      toNat_estimateTokens accepted, toNat_requestBudgetBytes, hundred, UInt8.toNat_toUInt64]
    constructor
    · rintro ⟨used, isUsed, wall, isWall, rfl⟩
      refine ⟨fun _ => ⟨?_, ?_⟩, ?_⟩
      · rw [Nat.mul_comm, ← isUsed]
        exact used.toNat_lt
      · rw [Nat.mul_comm, ← isWall]
        exact wall.toNat_lt
      · rw [decide_eq_true_eq, ge_iff_le, UInt64.le_iff_toNat_le, isUsed, isWall, Due, and_iff_right on.1,
          Nat.mul_comm, Nat.mul_comm 100]
    · rintro ⟨fits, same⟩
      obtain ⟨usedFits, wallFits⟩ := fits on.1
      refine ⟨.ofNat (self.tokens usedBytes.toNat * 100), ?_, .ofNat (self.tokens self.budget *
        self.compaction.triggerRatio.toNat), ?_, ?_⟩
      · rw [UInt64.toNat_ofNat_of_lt' (by rw [Nat.mul_comm]; exact usedFits)]
      · rw [UInt64.toNat_ofNat_of_lt' (by rw [Nat.mul_comm]; exact wallFits)]
      · rw [Bool.eq_iff_iff, same, decide_eq_true_eq, ge_iff_le, UInt64.le_iff_toNat_le,
          UInt64.toNat_ofNat_of_lt' (by rw [Nat.mul_comm]; exact wallFits),
          UInt64.toNat_ofNat_of_lt' (by rw [Nat.mul_comm]; exact usedFits), Due, and_iff_right on.1, Nat.mul_comm,
          Nat.mul_comm 100]
  case isFalse off =>
    have inactive : ¬ self.compaction.strategy ≠ .off := fun on => off ⟨on, armed on⟩
    have fits : self.Fits usedBytes.toNat := fun on => absurd on inactive
    have undue : ¬ self.Due usedBytes.toNat := fun due => inactive due.1
    rw [Option.some.injEq, and_iff_right fits]
    cases due <;> simp [undue]

/-- The projection is there exactly when the trigger is, with its fields. -/
theorem usage_some (accepted : self.validate = .ok ()) : self.usage usedBytes discardedSegments = some found ↔
    self.Fits usedBytes.toNat ∧ (found.proactiveCompactionDue = true ↔ self.Due usedBytes.toNat) ∧
      found = ⟨self.requestBudgetBytes, usedBytes, Checked.saturatingSub self.requestBudgetBytes usedBytes,
        self.contextCapBytes, self.tokenEstimate.estimateTokens usedBytes,
        self.tokenEstimate.estimateTokens self.requestBudgetBytes, self.tokenEstimate.estimateTokens
          (Checked.saturatingSub self.requestBudgetBytes usedBytes), discardedSegments, self.compaction.strategy,
        self.compaction.triggerRatio, found.proactiveCompactionDue⟩ := by
  simp only [usage, Option.bind_eq_bind, Option.bind_eq_some_iff, Option.some.injEq,
    proactiveCompactionDue_some accepted]
  constructor
  · rintro ⟨due, ⟨fits, same⟩, rfl⟩
    exact ⟨fits, same, rfl⟩
  · rintro ⟨fits, same, shape⟩
    exact ⟨_, ⟨fits, same⟩, shape.symm⟩

theorem usage_isSome (accepted : self.validate = .ok ()) (fits : self.Fits usedBytes.toNat) :
    ∃ found, self.usage usedBytes discardedSegments = some found := by
  obtain ⟨due, same⟩ : ∃ due : Bool, due = true ↔ self.Due usedBytes.toNat := by
    by_cases due : self.Due usedBytes.toNat
    · exact ⟨true, iff_of_true rfl due⟩
    · exact ⟨false, iff_of_false Bool.false_ne_true due⟩
  have trigger := (proactiveCompactionDue_some accepted).mpr ⟨fits, same⟩
  apply Option.isSome_iff_exists.mp
  simp only [usage, trigger, Option.bind_eq_bind, Option.bind_some, Option.isSome_some]

/-- The projection of a policy is exact: no product overflows, the budget and what remains of it are those of the natural
numbers, and so is the trigger, which no smaller use reaches earlier. -/
def Exact (self : ContextPolicy) (usedBytes discardedSegments : UInt64) : Prop :=
  ∃ found, self.usage usedBytes discardedSegments = some found ∧
    found.requestBudgetBytes.toNat = min self.maxRequestBytes.toNat
      (self.maxInputBytes.toNat - self.reservedOutputBytes.toNat) ∧
    0 < found.requestBudgetBytes.toNat ∧
    found.remainingBytes.toNat + min usedBytes.toNat found.requestBudgetBytes.toNat = found.requestBudgetBytes.toNat ∧
    (found.proactiveCompactionDue = true ↔ self.compaction.strategy ≠ .off ∧
      self.compaction.triggerRatio.toNat * self.tokens found.requestBudgetBytes.toNat ≤ 100 * self.tokens usedBytes.toNat) ∧
    ∀ less other, less ≤ usedBytes → self.usage less discardedSegments = some other →
      other.proactiveCompactionDue = true → found.proactiveCompactionDue = true

/-- An accepted policy is exact for a use exactly when compaction is off or both products of the trigger fit. -/
theorem usage_exact_iff (self : ContextPolicy) (accepted : self.validate = .ok ())
    (usedBytes discardedSegments : UInt64) : self.Exact usedBytes discardedSegments ↔ self.Fits usedBytes.toNat := by
  constructor
  · rintro ⟨found, there, _⟩
    exact ((usage_some accepted).mp there).1
  · intro fits
    obtain ⟨found, there⟩ := @usage_isSome self usedBytes discardedSegments accepted fits
    obtain ⟨_, due, shape⟩ := (usage_some accepted).mp there
    have budget : found.requestBudgetBytes.toNat = self.budget := by
      rw [shape]
      exact toNat_requestBudgetBytes
    have remaining : found.remainingBytes.toNat = self.budget - usedBytes.toNat := by
      rw [shape]
      exact Checked.toNat_saturatingSub.trans (by rw [toNat_requestBudgetBytes])
    refine ⟨found, there, budget, ?_, ?_, ?_, ?_⟩
    · rw [budget]
      exact (validate_positive accepted).1
    · rw [budget, remaining]
      omega
    · rw [budget]
      exact due
    · intro less other below usage reached
      obtain ⟨_, dueLess, _⟩ := (usage_some accepted).mp usage
      exact due.mpr ((dueLess.mp reached).mono (UInt64.le_iff_toNat_le.mp below))

/-- The default budgets with an enabled compaction. -/
def samplePolicy : ContextPolicy where
  maxRequestBytes := 524288
  maxInputBytes := 393216
  reservedOutputBytes := 131072
  contextCapBytes := 65536
  maxToolRounds := none
  providerTimeoutMs := 60000
  compaction := ⟨.summarizeOnDiscard, 90, 20, "agent.summarize", 32768⟩
  tokenEstimate := ⟨4⟩

theorem usage_exact_sample : samplePolicy.Exact 240000 0 ∧ samplePolicy.Due 240000 := by
  have accepted : samplePolicy.validate = .ok () := by decide +kernel
  have used : samplePolicy.tokens 240000 = 60000 := by decide +kernel
  have wall : samplePolicy.tokens samplePolicy.budget = 65536 := by decide +kernel
  have fits : samplePolicy.Fits (240000 : UInt64).toNat := by
    intro _
    rw [show (240000 : UInt64).toNat = 240000 by decide +kernel, used, wall]
    decide +kernel
  refine ⟨(usage_exact_iff samplePolicy accepted 240000 0).mpr fits, by decide +kernel, ?_⟩
  rw [used, wall]
  decide +kernel

/-- A policy without bounds: every budget is as large as it can be. -/
def boundlessPolicy : ContextPolicy :=
  { samplePolicy with maxRequestBytes := 18446744073709551615, maxInputBytes := 18446744073709551615,
                      reservedOutputBytes := 0 }

/-- It is accepted, and no use can be projected: the products of its trigger overflow. -/
theorem usage_overflows : boundlessPolicy.validate = .ok () ∧ boundlessPolicy.usage 0 0 = none ∧
    ¬ boundlessPolicy.Exact 0 0 := by
  have accepted : boundlessPolicy.validate = .ok () := by decide +kernel
  have none_ : boundlessPolicy.usage 0 0 = none := by decide +kernel
  refine ⟨accepted, none_, ?_⟩
  rintro ⟨found, there, _⟩
  rw [none_] at there
  cases there

/-! ## The policy that the rest of the runtime computes with -/

/-- The policy over the natural numbers. -/
def natural (self : ContextPolicy) : Headless.ContextPolicy where
  maxRequestBytes := self.maxRequestBytes.toNat
  maxInputBytes := self.maxInputBytes.toNat
  reservedOutputBytes := self.reservedOutputBytes.toNat
  contextCapBytes := self.contextCapBytes.toNat
  maxToolRounds := self.maxToolRounds.map UInt32.toNat
  providerTimeoutMs := self.providerTimeoutMs.toNat
  compaction := ⟨self.compaction.strategy, self.compaction.triggerRatio.toNat, self.compaction.retainRatio.toNat,
    self.compaction.maxSummarySourceBytes.toNat⟩
  bytesPerToken := self.tokenEstimate.bytesPerToken.toNat

/-- Where nothing overflows, the machine's projection refines the one over the natural numbers. -/
theorem usage_natural (accepted : self.validate = .ok ()) (there : self.usage usedBytes discardedSegments = some found) :
    self.natural.usage usedBytes.toNat discardedSegments.toNat = ⟨found.requestBudgetBytes.toNat, found.usedBytes.toNat,
      found.remainingBytes.toNat, found.discardedSegments.toNat, found.proactiveCompactionDue⟩ := by
  obtain ⟨_, due, shape⟩ := (usage_some accepted).mp there
  have same : self.natural.proactiveCompactionDue usedBytes.toNat = found.proactiveCompactionDue := by
    have armed := (validate_positive accepted).2.2
    rw [Bool.eq_iff_iff, due, Due]
    simp only [Headless.ContextPolicy.proactiveCompactionDue, Bool.and_eq_true, decide_eq_true_eq]
    rw [Nat.mul_comm self.compaction.triggerRatio.toNat, Nat.mul_comm 100]
    constructor
    · exact fun all => ⟨all.1.1, all.2⟩
    · exact fun both => ⟨⟨both.1, UInt8.lt_iff_toNat_lt.mp (armed both.1)⟩, both.2⟩
  rw [Headless.ContextPolicy.usage, same, shape]
  simp only [toNat_requestBudgetBytes, Checked.toNat_saturatingSub]
  rfl

end ContextPolicy

end LatteCode.Headless.Profile
