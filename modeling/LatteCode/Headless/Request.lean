import LatteCode.Headless.History
import LatteCode.Storage.Schema
/- Request shaping: the budgets of a profile, the two-phase fit and the assembled messages. -/

namespace LatteCode.Headless

inductive SessionRuntimeError where
  | storage (error : StorageError)
  | providerConfiguration (message : String)
  | provider (message : String)
  | history (message : String)
  | invalidState
  | mailboxFull
  | effect (message : String)
deriving DecidableEq, Repr

inductive CompactionStrategy where
  | off
  | summarizeOnDiscard
  | elideToolResultsThenSummarize
deriving DecidableEq, Repr

structure CompactionPolicy where
  strategy : CompactionStrategy
  triggerRatio : Nat
  retainRatio : Nat
  maxSummarySourceBytes : Nat

/-- The request budgets and the compaction switches of one resolved profile. -/
structure ContextPolicy where
  maxRequestBytes : Nat
  maxInputBytes : Nat
  reservedOutputBytes : Nat
  contextCapBytes : Nat
  maxToolRounds : Option Nat
  providerTimeoutMs : Nat
  compaction : CompactionPolicy
  bytesPerToken : Nat

namespace ContextPolicy

def requestBudgetBytes (self : ContextPolicy) : Nat :=
  min self.maxRequestBytes (self.maxInputBytes - self.reservedOutputBytes)

/-- `SessionHistoryPolicy::validate`. -/
def validate (self : ContextPolicy) : Except String Unit :=
  if self.maxRequestBytes = 0 ∨ self.maxInputBytes = 0 ∨ self.reservedOutputBytes ≥ self.maxInputBytes ∨
      self.contextCapBytes = 0 then
    .error ("max_request_bytes/context cap must be nonzero and reserved output must be smaller than " ++
      "input budget")
  else if self.maxToolRounds = some 0 then
    .error "max_tool_rounds must be omitted (unlimited) or at least 1"
  else if self.providerTimeoutMs = 0 then .error "provider_timeout_ms must be nonzero"
  else .ok ()

/-- `SessionHistoryPolicy::budget`. -/
def budget (self : ContextPolicy) : Except SessionRuntimeError Nat :=
  match self.validate with
  | .error message => .error (.history message)
  | .ok () => .ok self.requestBudgetBytes

/-- `TokenEstimateParams::estimate_tokens`, which rounds up. -/
def estimateTokens (self : ContextPolicy) (bytes : Nat) : Nat := (bytes + self.bytesPerToken - 1) / self.bytesPerToken

/-- The `proactive_compaction_due` field of `usage`. -/
def proactiveCompactionDue (self : ContextPolicy) (usedBytes : Nat) : Bool :=
  self.compaction.strategy ≠ .off && decide (0 < self.compaction.triggerRatio) &&
    decide (self.estimateTokens self.requestBudgetBytes * self.compaction.triggerRatio ≤
      self.estimateTokens usedBytes * 100)

end ContextPolicy

/-- The read-only projection of how full the next request is. -/
structure ContextUsage where
  requestBudgetBytes : Nat
  usedBytes : Nat
  remainingBytes : Nat
  discardedSegments : Nat
  proactiveCompactionDue : Bool
deriving DecidableEq

def ContextPolicy.usage (self : ContextPolicy) (usedBytes discardedSegments : Nat) : ContextUsage where
  requestBudgetBytes := self.requestBudgetBytes
  usedBytes := usedBytes
  remainingBytes := self.requestBudgetBytes - usedBytes
  discardedSegments := discardedSegments
  proactiveCompactionDue := self.proactiveCompactionDue usedBytes

/-- Non-persistent messages between the durable history and the open turn's prompt. -/
structure VolatileTurnContext where
  repository : Option Message
  reminder : Option Message

inductive FitKind where
  | history
  | repository
  | reminder
  | prompt
deriving DecidableEq

/-- One unit of the newest-first fit; an optional unit drops under pressure. -/
structure FitEntry where
  messages : List Message
  kind : FitKind
  mandatory : Bool

structure FitSelection where
  messages : List Message
  historyKept : Nat
  promptKept : Bool
  repositoryKept : Bool
  reminderKept : Bool

namespace FitEntry

def history (segment : HistorySegment) : FitEntry := ⟨segment.messages, .history, true⟩
def prompt (segment : HistorySegment) : FitEntry := ⟨segment.messages, .prompt, true⟩
def optional (kind : FitKind) (message : Message) : FitEntry := ⟨[message], kind, false⟩

end FitEntry

namespace VolatileTurnContext

def messages (self : VolatileTurnContext) : List Message := self.repository.toList ++ self.reminder.toList

def fitEntries (self : VolatileTurnContext) : List FitEntry :=
  (self.repository.map (FitEntry.optional .repository)).toList ++
    (self.reminder.map (FitEntry.optional .reminder)).toList

def filtered (self : VolatileTurnContext) (repositoryKept reminderKept : Bool) : VolatileTurnContext where
  repository := self.repository.filter fun _ => repositoryKept
  reminder := self.reminder.filter fun _ => reminderKept

end VolatileTurnContext

section Fit

variable (F : FloatFormat) (system : Message) (entries : List FitEntry) (budget : Nat)

/-- The system head with the messages of the entries that `included` admits, in wire order. -/
def candidate (included : Nat → FitEntry → Bool) : List Message :=
  system :: entries.zipIdx.flatMap fun unit => if included unit.2 unit.1 then unit.1.messages else []

def kept (keep : List Bool) (index : Nat) : Bool := keep.getD index false

/-- Phase 1: the mandatory core, newest first; the first that does not fit ends the walk. -/
def fitMandatory : Nat → List Bool → List Bool
  | 0, keep => keep
  | index + 1, keep =>
      if (entries[index]?).any fun entry => !entry.mandatory then fitMandatory index keep
      else if wireBytes F (candidate system entries fun other entry =>
          entry.mandatory && (kept keep other || other = index)) ≤ budget then
        fitMandatory index (keep.set index true)
      else keep

def optionalIndices : List Nat :=
  (entries.zipIdx.filter fun unit => !unit.1.mandatory).map Prod.snd

/-- Phase 2: the longest prefix of the optional units that fits the slack. -/
def admitOptional (keep : List Bool) : Nat → Nat
  | 0 => 0
  | prefixLen + 1 =>
      if wireBytes F (candidate system entries fun other _ =>
          kept keep other || ((optionalIndices entries).take (prefixLen + 1)).contains other) ≤ budget then
        prefixLen + 1
      else admitOptional keep prefixLen

/-- The two-phase newest-first fit. Serializing messages cannot fail. -/
def fitRequest : FitSelection :=
  let core := fitMandatory F system entries budget entries.length (List.replicate entries.length false)
  let admitted := (optionalIndices entries).take
    (admitOptional F system entries budget core (optionalIndices entries).length)
  let survivors := entries.zipIdx.filter fun unit => kept core unit.2 || admitted.contains unit.2
  { messages := survivors.flatMap fun unit => unit.1.messages
    historyKept := survivors.countP fun unit => unit.1.kind = .history
    promptKept := survivors.any fun unit => unit.1.kind = .prompt
    repositoryKept := survivors.any fun unit => unit.1.kind = .repository
    reminderKept := survivors.any fun unit => unit.1.kind = .reminder }

end Fit

def summaryMessage (summary : String) : Message :=
  .user ("Earlier conversation, automatically compacted to this summary:\n\n" ++ summary)

/-- `[head, summary?, history…, repository?, reminder?, prompt?]`. -/
def assembleRequest (system : Message) (summary : Option String) (history : List HistorySegment)
    (tails : VolatileTurnContext) (prompt : Option Message) : List Message :=
  system :: (summary.map summaryMessage).toList ++ history.flatMap HistorySegment.messages ++ tails.messages ++
    prompt.toList

/-- The tails go in front of the open turn's first segment. -/
def assembleMidTurnRequest (system : Message) (summary : Option String) (segments : List HistorySegment)
    (activeTurn : TurnId) (tails : VolatileTurnContext) : List Message :=
  let split := (segments.findIdx? fun segment => segment.turnId = some activeTurn).getD segments.length
  system :: (summary.map summaryMessage).toList ++ (segments.take split).flatMap HistorySegment.messages ++
    tails.messages ++ (segments.drop split).flatMap HistorySegment.messages

def enforceBudget (F : FloatFormat) (messages : List Message) (policy : ContextPolicy) :
    Except SessionRuntimeError Unit :=
  match policy.budget with
  | .error error => .error error
  | .ok budget =>
      if wireBytes F messages > budget then
        .error (.history ("request is " ++ toString (wireBytes F messages) ++ " bytes and exceeds the exact budget"))
      else .ok ()

/-- The read-only window projection: segments, the tail of the next request, no prompt. -/
def contextUsage (F : FloatFormat) (policy : ContextPolicy) (system : Message) (tails : VolatileTurnContext)
    (segments : List HistorySegment) : Except SessionRuntimeError ContextUsage :=
  match policy.budget with
  | .error error => .error error
  | .ok budget =>
      let fit := fitRequest F system (segments.map FitEntry.history ++ tails.fitEntries) budget
      .ok (policy.usage (wireBytes F (system :: fit.messages)) (segments.length - fit.historyKept))

theorem mem_assembleMidTurnRequest {system message : Message} {summary : Option String}
    {segments : List HistorySegment} {activeTurn : TurnId} {tails : VolatileTurnContext}
    {segment : HistorySegment} (listed : segment ∈ segments) (said : message ∈ segment.messages) :
    message ∈ assembleMidTurnRequest system summary segments activeTurn tails := by
  have split := List.take_append_drop
    ((segments.findIdx? fun segment => segment.turnId = some activeTurn).getD segments.length) segments
  rw [← split, List.mem_append] at listed
  simp only [assembleMidTurnRequest, List.mem_append, List.mem_cons, List.mem_flatMap]
  rcases listed with early | late
  · exact .inl (.inl (.inr ⟨segment, early, said⟩))
  · exact .inr ⟨segment, late, said⟩

end LatteCode.Headless
