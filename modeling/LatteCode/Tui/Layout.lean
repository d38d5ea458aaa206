import LatteCode.Tui.Reduce
/- Where a frame paints the card of the request that blocks the selected session. -/

namespace LatteCode.Tui

structure Rect where
  x : Nat
  y : Nat
  width : Nat
  height : Nat
deriving DecidableEq, Repr

inductive VisualState where
  | idle
  | active
  | permission
  | reconciliation
  | complete
deriving DecidableEq, Repr

inductive ViewportTier where
  | wide
  | medium
  | narrow
deriving DecidableEq, Repr

def ViewportTier.forWidth (width : Nat) : ViewportTier :=
  if width ≥ 110 then .wide else if width ≥ 78 then .medium else .narrow

def ViewportTier.compactInset : ViewportTier → Nat
  | .wide | .medium => 3
  | .narrow => 2

def ViewportTier.transcriptInset : ViewportTier → Nat
  | .wide | .medium => 4
  | .narrow => 2

def ViewportTier.idleComposerInset : ViewportTier → Nat
  | .wide => 6
  | .medium => 4
  | .narrow => 2

inductive IdleComposition where
  | expanded
  | wide
  | stacked
  | compact
deriving DecidableEq, Repr

def IdleComposition.forArea (height : Nat) : ViewportTier → IdleComposition
  | .wide => if height ≥ 52 then .expanded else .wide
  | .medium => .stacked
  | .narrow => .compact

def IdleComposition.headerHeight : IdleComposition → Nat
  | .expanded => 20
  | .wide | .compact => 12
  | .stacked => 15

/-- At most 160 columns, in the middle. -/
def appRect (area : Rect) : Rect :=
  let width := min area.width 160
  ⟨area.x + (area.width - width) / 2, area.y, width, area.height⟩

def boundedInset (width desired : Nat) : Nat := min desired ((width - 1) / 2)

/-! ## The composer -/

variable (E : TuiEnvironment)

def graphemeWidthAt (grapheme : String) (column : Nat) : Nat :=
  if grapheme = "\t" then 4 - column % 4 else E.width grapheme

/-- Rows finished so far and the column of the caret, after one more grapheme. -/
def placeGrapheme (width : Nat) (place : Nat × Nat) (grapheme : String) : Nat × Nat :=
  if grapheme = "\n" then (place.1 + 1, 0)
  else
    let wrapped :=
      if place.2 > 0 ∧ place.2 + graphemeWidthAt E grapheme place.2 > width then (place.1 + 1, 0) else place
    let advance := graphemeWidthAt E grapheme wrapped.2
    (wrapped.1, wrapped.2 + if grapheme = "\t" then min advance width else advance)

/-- The rows of `composer_text_layout`: an exact-width last row gets a caret row. -/
def composerRows (text : String) (width : Nat) : Nat :=
  let place := (E.graphemes text).foldl (placeGrapheme E (max width 1)) (0, 0)
  if place.2 ≥ max width 1 then place.1 + 2 else place.1 + 1

namespace SessionUiModel

variable (model : SessionUiModel)

def editorText : String :=
  if (model.selectedSession.bind inputRequest).isSome then model.input else model.composer

def turnCompleted (session : SessionSnapshot) : Bool :=
  session.latestTurnId.any fun turnId =>
    (session.turns.find? fun turn => turn.turnId = turnId).any fun turn => turn.status = .completed

def endsInCompletion (session : SessionSnapshot) : Bool :=
  (session.transcript.entries.reverse.find? fun entry => entry.kind ≠ .system).any fun entry => entry.kind = .completion

def visualState : VisualState :=
  match model.selectedSession with
  | none => if model.pendingSubmission.isSome then .active else .idle
  | some session =>
      if session.lifecycle = .reconciliationRequired then .reconciliation
      else if session.lifecycle = .waitingPermission ∨ (permissionRequest session).isSome then .permission
      else if session.lifecycle = .ready ∧ (turnCompleted session || endsInCompletion session) then .complete
      else .active

end SessionUiModel

/-! ## The viewport -/

structure ViewportLayout where
  app : Rect
  header : Rect
  transcript : Rect
  composer : Rect
  transcriptInset : Nat
  composerInset : Nat
deriving DecidableEq, Repr

def headerHeight (state : VisualState) (composition : IdleComposition) (tier : ViewportTier) : Nat :=
  if state = .idle then composition.headerHeight
  else match tier with
    | .wide | .medium => 3
    | .narrow => 2

def baseComposerHeight (area : Rect) (state : VisualState) (composition : IdleComposition) (tier : ViewportTier) : Nat :=
  if (state = .permission ∨ state = .reconciliation) ∧ area.height < 18 then 3
  else if (state = .idle ∧ composition = .expanded) ∨ tier = .narrow then 5
  else 4

/-- An idle header gives way in a small area. -/
def desiredHeaderHeight (area : Rect) (state : VisualState) (header composer : Nat) : Nat :=
  if state = .idle ∧ (area.width < 40 ∨ area.height < header + composer + 1) then
    if area.height ≤ 2 then 0 else if area.height ≤ 5 then 1 else if area.height ≤ 9 then 2 else 5
  else header

def viewportLayout (area : Rect) (state : VisualState) (model : SessionUiModel) : ViewportLayout :=
  let tier := ViewportTier.forWidth area.width
  let composition := IdleComposition.forArea area.height tier
  let composerInset := boundedInset area.width (if state = .idle then tier.idleComposerInset else tier.compactInset)
  let editorWidth := max (area.width - (composerInset * 2 + 2)) 1
  let extra := min (composerRows E model.editorText editorWidth - 1) 4
  let desiredComposer := baseComposerHeight area state composition tier + extra
  let desiredHeader := desiredHeaderHeight area state (headerHeight state composition tier) desiredComposer
  let minimumComposer := min area.height 2
  let header := min desiredHeader (area.height - minimumComposer)
  let reserve := if area.height ≥ header + minimumComposer + 1 then 1 else 0
  let composer := min desiredComposer (area.height - header - reserve)
  { app := area
    header := ⟨area.x, area.y, area.width, header⟩
    transcript := ⟨area.x, area.y + header, area.width, area.height - header - composer⟩
    composer := ⟨area.x, area.y + area.height - composer, area.width, composer⟩
    transcriptInset := boundedInset area.width tier.transcriptInset
    composerInset := composerInset }

/-- The area that `render_transcript` fills and lays the blocking card over. -/
def transcriptArea (area : Rect) (model : SessionUiModel) : Rect :=
  let layout := viewportLayout E (appRect area) model.visualState model
  ⟨layout.app.x + layout.transcriptInset, layout.transcript.y, layout.app.width - layout.transcriptInset * 2,
    layout.transcript.height⟩

/-- Eight lines, or three where they do not fit, above the composer. -/
def pinnedCard (area : Rect) : Rect :=
  let card := if 8 + 2 > area.height then 3 else 8
  let bottomInset := if area.height > card then 1 else 0
  let visible := min card (area.height - bottomInset)
  ⟨area.x, area.y + area.height - visible - bottomInset, area.width, visible⟩

/-- The permission card that a frame paints into `area`, and where. -/
def permissionCard (area : Rect) (model : SessionUiModel) : Option ((SessionId × String) × Rect) :=
  let transcript := transcriptArea E area model
  if area.width = 0 ∨ area.height = 0 ∨ transcript.width = 0 ∨ transcript.height = 0 then none
  else if model.visualState = .permission then
    (model.selectedSession.bind permissionRequest).map fun request => (request, pinnedCard transcript)
  else none

/-- The frame shows the card of this request in a non-empty area. -/
def ShowsCard (area : Rect) (model : SessionUiModel) (request : SessionId × String) : Prop :=
  ∃ card, permissionCard E area model = some (request, card) ∧ 0 < card.width ∧ 0 < card.height

theorem pinnedCard_nonempty {area : Rect} (width : 0 < area.width) (height : 0 < area.height) :
    0 < (pinnedCard area).width ∧ 0 < (pinnedCard area).height := by
  refine ⟨width, ?_⟩
  unfold pinnedCard
  simp only
  split
  · split <;> omega
  · split <;> omega

/-- Outside reconciliation, a request of the selected session has its card wherever there is room for one. -/
theorem showsCard_of_room {area : Rect} {model : SessionUiModel} {session : SessionSnapshot} {request : SessionId × String}
    (selected : model.selectedSession = some session) (pending : permissionRequest session = some request)
    (lifecycle : session.lifecycle ≠ .reconciliationRequired) (frame : 0 < area.width ∧ 0 < area.height)
    (room : 0 < (transcriptArea E area model).width ∧ 0 < (transcriptArea E area model).height) :
    ShowsCard E area model request := by
  have state : model.visualState = .permission := by
    rw [SessionUiModel.visualState, selected]
    simp only
    rw [if_neg lifecycle, if_pos (.inr (by rw [pending]; rfl))]
  refine ⟨pinnedCard (transcriptArea E area model), ?_, pinnedCard_nonempty room.1 room.2⟩
  rw [permissionCard, if_neg (by omega), if_pos state, selected, Option.bind_some, pending, Option.map_some]

end LatteCode.Tui
