import PosFramework.Cloud.Reports.Cash

set_option autoImplicit false

/-! # Drawers handed over

A shift hands its drawer over when the next opening on the drawer names it. A drawer whose shifts of
a day are such a chain is counted once: its float is the one the first shift brought, its count the
one the last shift made, and between them stand the differences of the handovers. The opening and
the close of a shift each take back the carried cash, so what a chain leaves is a telescope. -/

namespace PosFramework

open Std (ExtTreeMap)
open RecordedEvent List Option Rollups Prod Keyed CashDrawer

/-! ## Chains of handovers -/

/-- What happens to a drawer's shifts. -/
inductive DrawerMove
  /-- A shift opens with a float; it takes over a shift if it names the one last closed on the
      drawer. -/
  | opened (shift : ShiftId) (float : Int) (tookOver : Option ShiftId)
  | closed (shift : ShiftId) (counted : Int)
deriving DecidableEq

/-- The shift last closed on a drawer, after a move there. -/
def lastAfter (last : Option ShiftId) : Option DrawerMove → Option ShiftId
  | some (.closed shift _) => some shift
  | some (.opened _ _ _) | none => last

namespace RecordedEvent

/-- The move an event makes on a drawer, where `last` is the shift last closed there. -/
def move (event : RecordedEvent) (drawer : CashDrawer) (last : Option ShiftId) :
    Option DrawerMove :=
  match event.data with
  | .known (.cashShiftOpened opened) =>
    if .of opened.terminalDeviceId = drawer then
      some (.opened opened.openedShiftId opened.openingFloat.minor
        (if opened.handedOverFromShiftId = last then last else none))
    else none
  | .known (.cashShiftClosed closed) =>
    if .of closed.terminalDeviceId = drawer then
      some (.closed closed.closedShiftId closed.countedAmount.minor)
    else none
  | _ => none

def opens (shiftId : ShiftId) (event : RecordedEvent) : Bool :=
  match event.data with
  | .known (.cashShiftOpened opened) => opened.openedShiftId = shiftId
  | _ => false

def closes (shiftId : ShiftId) (event : RecordedEvent) : Bool :=
  match event.data with
  | .known (.cashShiftClosed closed) => closed.closedShiftId = shiftId
  | _ => false

end RecordedEvent

/-- The moves on a drawer that are of one trading day, in the order of the log. -/
def drawerMoves (date : BusinessDate) (drawer : CashDrawer) :
    Option ShiftId → List RecordedEvent → List DrawerMove
  | _, [] => []
  | last, event :: rest =>
    let move := event.move drawer last
    (if event.businessDate = date then move.toList else []) ++
      drawerMoves date drawer (lastAfter last move) rest

/-- A shift of a chain. -/
structure ChainShift where
  id : ShiftId
  float : Int
  counted : Int

/-- The moves of a chain: each shift opens, taking over the one before it, and closes. -/
def chainMoves : Option ShiftId → List ChainShift → List DrawerMove
  | _, [] => []
  | previous, shift :: rest =>
    .opened shift.id shift.float previous :: .closed shift.id shift.counted ::
      chainMoves (some shift.id) rest

/-- What the last shift of a chain counted. -/
def lastCount (first : ChainShift) : List ChainShift → Int
  | [] => first.counted
  | shift :: rest => lastCount shift rest

/-- The differences of a chain's handovers: each incoming float less the outgoing count. -/
def handoverDifferences (first : ChainShift) : List ChainShift → Int
  | [] => 0
  | shift :: rest => (shift.float - first.counted) + handoverDifferences shift rest

/-- The only shifts of a drawer's day are a chain of handovers, each opened and closed on that day:
    the first took over none, and each other the one before it. -/
structure HandoverChain (log : List RecordedEvent) (date : BusinessDate) (drawer : CashDrawer)
    (shifts : List ChainShift) : Prop where
  moves : drawerMoves date drawer none log = chainMoves none shifts
  opened : ∀ shift ∈ shifts, log.countP (RecordedEvent.opens shift.id) = 1
  closed : ∀ shift ∈ shifts, log.countP (RecordedEvent.closes shift.id) = 1

instance (log : List RecordedEvent) (date : BusinessDate) (drawer : CashDrawer)
    (shifts : List ChainShift) : Decidable (HandoverChain log date drawer shifts) :=
  decidable_of_iff (_ ∧ _ ∧ _) ⟨fun h => ⟨h.1, h.2.1, h.2.2⟩,
    fun h => ⟨h.moves, h.opened, h.closed⟩⟩

/-! ## Moves -/

section Moves

variable {event : RecordedEvent} {drawer : CashDrawer} {last : Option ShiftId}

theorem move_eq_opened {shift : ShiftId} {float : Int} {tookOver : Option ShiftId}
    (h : event.move drawer last = some (.opened shift float tookOver)) :
    ∃ opened, event.data = .known (.cashShiftOpened opened) ∧
      of opened.terminalDeviceId = drawer ∧ opened.openedShiftId = shift ∧
      opened.openingFloat.minor = float ∧
      (if opened.handedOverFromShiftId = last then last else none) = tookOver := by
  unfold move at h
  split at h
  case h_1 opened hdata => exact ⟨opened, hdata, by grind⟩
  case h_2 => grind
  case h_3 => cases h

theorem move_eq_closed {shift : ShiftId} {counted : Int}
    (h : event.move drawer last = some (.closed shift counted)) :
    ∃ closed, event.data = .known (.cashShiftClosed closed) ∧
      of closed.terminalDeviceId = drawer ∧ closed.closedShiftId = shift ∧
      closed.countedAmount.minor = counted := by
  unfold move at h
  split at h
  case h_1 => grind
  case h_2 closed hdata => exact ⟨closed, hdata, by grind⟩
  case h_3 => cases h

variable {date : BusinessDate} {log : List RecordedEvent} {shift : ShiftId}

/-- A move of the drawer is one an event of the log makes. -/
theorem exists_of_mem_drawerMoves {move : DrawerMove}
    (h : move ∈ drawerMoves date drawer last log) :
    ∃ event ∈ log, ∃ last, event.move drawer last = some move := by
  induction log generalizing last with
  | nil => cases h
  | cons event rest ih =>
    rcases mem_append.1 h with hhead | hrest
    · split at hhead
      · exact ⟨event, mem_cons_self, last, mem_toList.1 hhead⟩
      · cases hhead
    · obtain ⟨later, hlater, hmove⟩ := ih hrest
      exact ⟨later, mem_cons_of_mem _ hlater, hmove⟩

theorem countP_opens_pos {float : Int} {tookOver : Option ShiftId}
    (h : .opened shift float tookOver ∈ drawerMoves date drawer last log) :
    0 < log.countP (RecordedEvent.opens shift) := by
  obtain ⟨event, hevent, _, hmove⟩ := exists_of_mem_drawerMoves h
  obtain ⟨opened, hdata, -, hshift, -⟩ := move_eq_opened hmove
  exact countP_pos_iff.2 ⟨event, hevent, by simp [RecordedEvent.opens, hdata, hshift]⟩

theorem countP_closes_pos {counted : Int}
    (h : .closed shift counted ∈ drawerMoves date drawer last log) :
    0 < log.countP (RecordedEvent.closes shift) := by
  obtain ⟨event, hevent, _, hmove⟩ := exists_of_mem_drawerMoves h
  obtain ⟨closed, hdata, -, hshift, -⟩ := move_eq_closed hmove
  exact countP_pos_iff.2 ⟨event, hevent, by simp [RecordedEvent.closes, hdata, hshift]⟩

/-- A shift of a chain opens and closes among its moves. -/
theorem mem_chainMoves {shifts : List ChainShift} {one : ChainShift} (hone : one ∈ shifts)
    (previous : Option ShiftId) :
    (∃ tookOver, .opened one.id one.float tookOver ∈ chainMoves previous shifts) ∧
      .closed one.id one.counted ∈ chainMoves previous shifts := by
  induction shifts generalizing previous with
  | nil => cases hone
  | cons shift rest ih =>
    rcases mem_cons.1 hone with rfl | hone
    · simp [chainMoves]
    · obtain ⟨⟨tookOver, hopened⟩, hclosed⟩ := ih hone (some shift.id)
      exact ⟨⟨tookOver, by simp [chainMoves, hopened]⟩, by simp [chainMoves, hclosed]⟩

end Moves

/-! ## What is kept of a drawer's shifts -/

section Kept

variable (rollups : Rollups) (sums : Sums) (event : RecordedEvent)

theorem handovers_fold_opened {opened : CashShiftOpened}
    (hdata : event.data = .known (.cashShiftOpened opened)) :
    (rollups.fold sums event).handovers =
      (rollups.handovers.outgoing opened).elim rollups.handovers fun outgoing =>
        { rollups.handovers with
          carried := rollups.handovers.carried.insert opened.openedShiftId
            (opened.openingFloat.minor, outgoing) } := by
  simp only [fold, foldHandovers, hdata, foldOpened]
  cases rollups.handovers.outgoing opened <;> rfl

/-- An event leaves what a shift carries, unless it opens or closes the shift. -/
theorem carried_fold {shift : ShiftId} (hopens : event.opens shift = false)
    (hcloses : event.closes shift = false) :
    (rollups.fold sums event).handovers.carried[shift]? = rollups.handovers.carried[shift]? := by
  simp only [fold, foldHandovers]
  split
  case h_1 opened hdata =>
    have hne : opened.openedShiftId ≠ shift := by simpa [RecordedEvent.opens, hdata] using hopens
    rw [foldOpened]
    cases rollups.handovers.outgoing opened with
    | none => rfl
    | some => exact (get_insert ..).trans (if_neg hne)
  case h_2 closed hdata =>
    have hne : closed.closedShiftId ≠ shift := by simpa [RecordedEvent.closes, hdata] using hcloses
    exact (get_erase ..).trans (if_neg hne)
  all_goals rfl

/-- The shift last closed on a drawer, with its count, after an event. -/
def lastClosedAfter (before : Option (ShiftId × Int)) : Option DrawerMove → Option (ShiftId × Int)
  | some (.closed shift counted) => some (shift, counted)
  | some (.opened _ _ _) | none => before

theorem lastClosed_fold (drawer : CashDrawer) (last : Option ShiftId) :
    (rollups.fold sums event).handovers.lastClosed[drawer]? =
      lastClosedAfter rollups.handovers.lastClosed[drawer]? (event.move drawer last) := by
  cases hdata : event.data with
  | known payload =>
    cases payload with
    | cashShiftOpened opened =>
      simp only [fold, foldHandovers, hdata, move, foldOpened]
      cases rollups.handovers.outgoing opened <;> dsimp only <;> split <;> rfl

    | cashShiftClosed closed =>
      simp only [fold, foldHandovers, hdata, move, foldClosed, get_insert]
      split <;> rfl
    | _ => simp only [fold, foldHandovers, hdata, move, lastClosedAfter]
  | _ => simp only [fold, foldHandovers, hdata, move, lastClosedAfter]

end Kept

/-! ## What a chain gains -/

/-- What three of a drawer's figures gain. -/
structure Gains (before after : CashTotals) (float counted difference : Int) : Prop where
  openingFloat : after .openingFloat = before .openingFloat + float
  counted : after .counted = before .counted + counted
  handoverDifference : after .handoverDifference = before .handoverDifference + difference

theorem Gains.trans {one two three : CashTotals}
    {float counted difference float' counted' difference' : Int}
    (h : Gains one two float counted difference)
    (h' : Gains two three float' counted' difference') :
    Gains one three (float + float') (counted + counted') (difference + difference') where
  openingFloat := by rw [h'.openingFloat, h.openingFloat, add_assoc]
  counted := by rw [h'.counted, h.counted, add_assoc]
  handoverDifference := by rw [h'.handoverDifference, h.handoverDifference, add_assoc]

theorem Gains.of_eq {before after : CashTotals} (h : after = before) :
    Gains before after 0 0 0 := by
  subst h
  exact ⟨(add_zero _).symm, (add_zero _).symm, (add_zero _).symm⟩

theorem Gains.of_add {before figures : CashTotals} :
    Gains before (before + figures) (figures .openingFloat) (figures .counted)
      (figures .handoverDifference) := ⟨rfl, rfl, rfl⟩

/-- A drawer's figures on a day. -/
def drawerAt (rollups : Rollups) (date : BusinessDate) (drawer : CashDrawer) : CashTotals :=
  (sheetAt rollups.cash date).drawer drawer

section Steps

variable {rollups : Rollups} {event : RecordedEvent} {date : BusinessDate} {drawer : CashDrawer}
  {last : Option ShiftId}

/-- On its day, an event adds its figures to its drawer. -/
theorem drawerAt_fold : drawerAt (rollups.fold .exact event) date drawer =
    drawerAt rollups date drawer + if event.businessDate = date then
      (cashEffect rollups event).elim 0 fun effect => if effect.1 = drawer then effect.2 else 0
    else 0 := by
  rw [drawerAt, sheetAt_fold, sheetsAfter, Function.update_apply, drawerAt]
  by_cases hdate : event.businessDate = date
  · subst hdate
    cases cashEffect rollups event with
    | none => simp [CashSheet.take]
    | some => simp [CashSheet.take, CashSheet.drawer_post]
  · simp [hdate, Ne.symm hdate]

/-- What moves no shift of the drawer moves none of the three figures. -/
theorem gains_of_no_move (h : event.businessDate = date → event.move drawer last = none) :
    Gains (drawerAt rollups date drawer)
      (drawerAt (rollups.fold .exact event) date drawer) 0 0 0 := by
  rw [drawerAt_fold]
  split
  · next hdate =>
    have hnone := h hdate
    cases heffect : cashEffect rollups event with
    | none => exact .of_eq (add_zero _)
    | some effect =>
      rw [elim_some]
      split
      · next htill =>
        obtain ⟨opened, hdata, hof, -⟩ | ⟨closed, hdata, hof, -⟩ | ⟨figure, hplain, n, hn⟩ :=
          cashEffect_cases heffect
        · simp [move, hdata, hof, htill] at hnone
        · simp [move, hdata, hof, htill] at hnone
        · rw [← hn]
          rcases hplain with rfl | rfl | rfl | rfl <;> exact Gains.of_add
      · exact .of_eq (add_zero _)
  · exact .of_eq (add_zero _)

theorem gains_of_opened {shift : ShiftId} {float : Int} {tookOver : Option ShiftId}
    (hdate : event.businessDate = date)
    (hmove : event.move drawer last = some (.opened shift float tookOver)) {outgoing : Option Int}
    (houtgoing : ∀ opened, event.data = .known (.cashShiftOpened opened) →
      rollups.handovers.outgoing opened = outgoing) :
    Gains (drawerAt rollups date drawer) (drawerAt (rollups.fold .exact event) date drawer)
      (if outgoing.isSome then 0 else float) 0 (outgoing.elim 0 (float - ·)) := by
  obtain ⟨opened, hdata, hdrawer, -, rfl, -⟩ := move_eq_opened hmove
  have heffect : cashEffect rollups event =
      some (drawer, openingFigures opened.openingFloat.minor outgoing) := by
    simp only [cashEffect, hdata, hdrawer, houtgoing opened hdata]
  rw [drawerAt_fold, if_pos hdate, heffect, elim_some, if_pos rfl]
  cases outgoing with
  | none =>
    constructor <;> simp [openingFigures, CashFigure.only]
  | some =>
    constructor <;> simp [openingFigures, CashFigure.only, takeOver, Sums.exact]

theorem gains_of_closed {shift : ShiftId} {counted : Int} (hdate : event.businessDate = date)
    (hmove : event.move drawer last = some (.closed shift counted)) :
    Gains (drawerAt rollups date drawer) (drawerAt (rollups.fold .exact event) date drawer)
      0 (counted - rollups.handovers.carried[shift]?.elim 0 snd) 0 := by
  obtain ⟨closed, hdata, hdrawer, rfl, rfl⟩ := move_eq_closed hmove
  have heffect : cashEffect rollups event =
      some (drawer, closeFigures closed rollups.floats.shifts[closed.closedShiftId]?
        rollups.handovers.carried[closed.closedShiftId]?) := by
    simp only [cashEffect, hdata, hdrawer]
  rw [drawerAt_fold, if_pos hdate, heffect, elim_some, if_pos rfl]
  cases rollups.handovers.carried[closed.closedShiftId]? with
  | none =>
    constructor <;> simp [closeFigures, CashFigure.only]
  | some =>
    constructor <;> simp [closeFigures, CashFigure.only, settleCarried, sub_eq_add_neg]

end Steps

/-! ## A chain as it is folded -/

section Chain

variable {rollups : Rollups} {event : RecordedEvent} {date : BusinessDate} {drawer : CashDrawer}
  {last : Option ShiftId} {log : List RecordedEvent} {todo : List ChainShift}
  {previous : Option ChainShift} {current : ChainShift} {p : RecordedEvent → Bool}

/-- The next event makes no move of the day, or makes the first. -/
theorem drawerMoves_cons {moves : List DrawerMove}
    (h : drawerMoves date drawer last (event :: log) = moves) :
    ((event.businessDate = date → event.move drawer last = none) ∧
      drawerMoves date drawer (lastAfter last (event.move drawer last)) log = moves) ∨
    ∃ move rest, moves = move :: rest ∧ event.businessDate = date ∧
      event.move drawer last = some move ∧
      drawerMoves date drawer (lastAfter last (event.move drawer last)) log = rest := by
  rw [drawerMoves] at h
  split at h
  · next hdate =>
    cases hmove : event.move drawer last with
    | none =>
      rw [hmove] at h
      exact .inl ⟨fun _ => rfl, h⟩
    | some move =>
      rw [hmove] at h
      exact .inr ⟨move, _, h.symm, hdate, rfl, rfl⟩
  · next hdate =>
    exact .inl ⟨fun hsame => absurd hsame hdate, h⟩

theorem last_fold (hlast : rollups.handovers.lastClosed[drawer]?.map fst = last) (sums : Sums) :
    (rollups.fold sums event).handovers.lastClosed[drawer]?.map fst =
      lastAfter last (event.move drawer last) := by
  rw [lastClosed_fold rollups sums event drawer last]
  rcases event.move drawer last with _ | ⟨shift, float, tookOver⟩ | ⟨shift, counted⟩
  · exact hlast
  · exact hlast
  · rfl

/-- The shifts of a chain that are still to come. -/
structure Awaited (rollups : Rollups) (todo : List ChainShift)
    (log : List RecordedEvent) : Prop where
  fresh : ∀ shift ∈ todo, rollups.handovers.carried[shift.id]? = none
  opened : ∀ shift ∈ todo, log.countP (RecordedEvent.opens shift.id) = 1
  closed : ∀ shift ∈ todo, log.countP (RecordedEvent.closes shift.id) = 1

theorem countP_of_pending (honce : (event :: log).countP p = 1)
    (hpending : 0 < log.countP p) : p event = false ∧ log.countP p = 1 := by
  grind

/-- An event before the shifts to come is of none of them. -/
theorem Awaited.step (h : Awaited rollups todo (event :: log)) (before : List DrawerMove)
    {chained : Option ShiftId}
    (hmoves : drawerMoves date drawer last log = before ++ chainMoves chained todo) (sums : Sums) :
    Awaited (rollups.fold sums event) todo log := by
  have hopened : ∀ shift ∈ todo, event.opens shift.id = false ∧
      log.countP (RecordedEvent.opens shift.id) = 1 := by
    intro shift hshift
    obtain ⟨tookOver, hmem⟩ := (mem_chainMoves hshift chained).1
    exact countP_of_pending (h.opened shift hshift)
      (countP_opens_pos (hmoves ▸ mem_append_right before hmem))
  have hclosed : ∀ shift ∈ todo, event.closes shift.id = false ∧
      log.countP (RecordedEvent.closes shift.id) = 1 := by
    intro shift hshift
    have hmem := (mem_chainMoves hshift chained).2
    exact countP_of_pending (h.closed shift hshift)
      (countP_closes_pos (hmoves ▸ mem_append_right before hmem))
  exact
    { fresh := fun shift hshift =>
        (carried_fold rollups sums event (hopened shift hshift).1 (hclosed shift hshift).1).trans
          (h.fresh shift hshift)
      opened := fun shift hshift => (hopened shift hshift).2
      closed := fun shift hshift => (hclosed shift hshift).2 }

/-- The chain is between two shifts: `previous` was the last to close, and `todo` are to come. -/
structure Between (rollups : Rollups) (date : BusinessDate) (drawer : CashDrawer)
    (last : Option ShiftId)
    (previous : Option ChainShift) (todo : List ChainShift) (log : List RecordedEvent) : Prop where
  lastShift : rollups.handovers.lastClosed[drawer]?.map fst = last
  moves : drawerMoves date drawer last log = chainMoves (previous.map (·.id)) todo
  awaited : Awaited rollups todo log
  done : ∀ shift ∈ previous, log.countP (RecordedEvent.closes shift.id) = 0
  counted : ∀ shift ∈ previous, ∀ n, rollups.handovers.lastClosed[drawer]? = some (shift.id, n) →
    n = shift.counted

/-- A shift of the chain is open: it carries on what `previous` counted. -/
structure Within (rollups : Rollups) (date : BusinessDate) (drawer : CashDrawer)
    (last : Option ShiftId)
    (previous : Option ChainShift) (current : ChainShift) (todo : List ChainShift)
    (log : List RecordedEvent) : Prop where
  lastShift : rollups.handovers.lastClosed[drawer]?.map fst = last
  moves : drawerMoves date drawer last log =
    .closed current.id current.counted :: chainMoves (some current.id) todo
  awaited : Awaited rollups todo log
  carried : rollups.handovers.carried[current.id]? =
    previous.map fun shift => (current.float, shift.counted)
  done : log.countP (RecordedEvent.opens current.id) = 0
  once : log.countP (RecordedEvent.closes current.id) = 1

theorem countP_zero_of_cons (h : (event :: log).countP p = 0) :
    p event = false ∧ log.countP p = 0 := by
  grind

/-- Between two shifts, an event that is no move of the day leaves the chain where it is. -/
theorem Between.idle (h : Between rollups date drawer last previous todo (event :: log))
    (hmoves : drawerMoves date drawer (lastAfter last (event.move drawer last)) log =
      chainMoves (previous.map (·.id)) todo) (sums : Sums) :
    Between (rollups.fold sums event) date drawer
      (lastAfter last (event.move drawer last)) previous todo
      log where
  lastShift := last_fold h.lastShift sums
  moves := hmoves
  awaited := h.awaited.step [] hmoves sums
  done := fun shift hshift => (countP_zero_of_cons (h.done shift hshift)).2
  counted := by
    intro shift hshift n hn
    have hcloses := (countP_zero_of_cons (h.done shift hshift)).1
    rw [lastClosed_fold rollups sums event drawer last] at hn
    rcases hmove : event.move drawer last with _ | ⟨another, float, tookOver⟩ | ⟨another, counted⟩
    · rw [hmove] at hn
      exact h.counted shift hshift n hn
    · rw [hmove] at hn
      exact h.counted shift hshift n hn
    · -- another shift closes on the drawer, since this one has closed for good
      rw [hmove] at hn
      obtain ⟨closed, hdata, -, hanother, -⟩ := move_eq_closed hmove
      have hsame : another = shift.id := congrArg fst (some.inj hn)
      simp [closes, hdata, hanother, hsame] at hcloses

/-- While a shift is open, an event that is no move of the day leaves the chain where it is. -/
theorem Within.idle (h : Within rollups date drawer last previous current todo (event :: log))
    (hmoves : drawerMoves date drawer (lastAfter last (event.move drawer last)) log =
      .closed current.id current.counted :: chainMoves (some current.id) todo) (sums : Sums) :
    Within (rollups.fold sums event) date drawer
      (lastAfter last (event.move drawer last)) previous current
      todo log := by
  have hopens := countP_zero_of_cons h.done
  have hpending := countP_closes_pos (hmoves ▸ mem_cons_self)
  have hcloses := countP_of_pending h.once hpending
  exact
    { lastShift := last_fold h.lastShift sums
      moves := hmoves
      awaited := h.awaited.step [_] hmoves sums
      carried := (carried_fold rollups sums event hopens.1 hcloses.1).trans h.carried
      done := hopens.2
      once := hcloses.2 }

/-- The opening of the chain's next shift takes over the one before it, at its count. -/
theorem Between.outgoing (h : Between rollups date drawer last previous todo log) {shift : ShiftId}
    {float : Int}
    (hmove : event.move drawer last = some (.opened shift float (previous.map (·.id))))
    (opened : CashShiftOpened) (hdata : event.data = .known (.cashShiftOpened opened)) :
    rollups.handovers.outgoing opened = previous.map (·.counted) := by
  obtain ⟨same, hsame, hdrawer, -, -, htook⟩ := move_eq_opened hmove
  obtain rfl : opened = same := by
    rw [hdata] at hsame
    cases hsame
    rfl
  have hlast := h.lastShift
  rw [KeptHandovers.outgoing, hdrawer]
  cases hclosed : rollups.handovers.lastClosed[drawer]? with
  | none =>
    rw [hclosed] at hlast
    obtain rfl : none = last := hlast
    rw [ite_self] at htook
    rw [map_eq_none_iff.1 htook.symm]
    rfl
  | some closed =>
    obtain ⟨closedShift, counted⟩ := closed
    rw [hclosed] at hlast
    obtain rfl : some closedShift = last := hlast
    dsimp only
    by_cases hnamed : some closedShift = opened.handedOverFromShiftId
    · rw [if_pos hnamed.symm] at htook
      obtain ⟨before, hbefore, rfl⟩ := map_eq_some_iff.1 htook.symm
      rw [if_pos hnamed, hbefore, h.counted before hbefore counted hclosed]
      rfl
    · rw [if_neg (Ne.symm hnamed)] at htook
      rw [if_neg hnamed, map_eq_none_iff.1 htook.symm]
      rfl

theorem Between.opens
    (h : Between rollups date drawer last previous (current :: todo) (event :: log))
    (hmove : event.move drawer last = some (.opened current.id current.float (previous.map (·.id))))
    (hmoves : drawerMoves date drawer (lastAfter last (event.move drawer last)) log =
      .closed current.id current.counted :: chainMoves (some current.id) todo) (sums : Sums) :
    Within (rollups.fold sums event) date drawer
      (lastAfter last (event.move drawer last)) previous current
      todo log := by
  obtain ⟨opened, hdata, hdrawer, hshift, hfloat, -⟩ := move_eq_opened hmove
  have htodo : Awaited rollups todo (event :: log) :=
    { fresh := fun shift hshift => h.awaited.fresh shift (mem_cons_of_mem _ hshift)
      opened := fun shift hshift => h.awaited.opened shift (mem_cons_of_mem _ hshift)
      closed := fun shift hshift => h.awaited.closed shift (mem_cons_of_mem _ hshift) }
  have hopens : event.opens current.id = true := by simp [RecordedEvent.opens, hdata, hshift]
  have hcloses : event.closes current.id = false := by simp [RecordedEvent.closes, hdata]
  have honce := h.awaited.opened current mem_cons_self
  have hcloseOnce := h.awaited.closed current mem_cons_self
  rw [countP_cons, hopens, if_pos rfl] at honce
  rw [countP_cons, hcloses] at hcloseOnce
  refine
    { lastShift := last_fold h.lastShift sums
      moves := hmoves
      awaited := htodo.step [_] hmoves sums
      carried := ?_
      done := Nat.succ.inj honce
      once := hcloseOnce }
  rw [handovers_fold_opened rollups sums event hdata, h.outgoing hmove opened hdata]
  cases previous with
  | none => exact h.awaited.fresh current mem_cons_self
  | some =>
    rw [hfloat, hshift]
    exact (get_insert ..).trans (if_pos rfl)

theorem Within.closes (h : Within rollups date drawer last previous current todo (event :: log))
    (hmove : event.move drawer last = some (.closed current.id current.counted))
    (hmoves : drawerMoves date drawer (lastAfter last (event.move drawer last)) log =
      chainMoves (some current.id) todo) (sums : Sums) :
    Between (rollups.fold sums event) date drawer (lastAfter last (event.move drawer last))
      (some current)
      todo log := by
  obtain ⟨closed, hdata, hdrawer, hshift, hcounted⟩ := move_eq_closed hmove
  have hcloses : event.closes current.id = true := by simp [RecordedEvent.closes, hdata, hshift]
  have honce := h.once
  rw [countP_cons, hcloses, if_pos rfl] at honce
  refine
    { lastShift := last_fold h.lastShift sums
      moves := hmoves
      awaited := h.awaited.step [] hmoves sums
      done := fun shift hshift => ?_
      counted := fun shift hshift n hn => ?_ }
  · obtain rfl := some.inj hshift
    exact Nat.succ.inj honce
  · obtain rfl := some.inj hshift
    rw [lastClosed_fold rollups sums event drawer last, hmove] at hn
    exact (congrArg snd (some.inj hn)).symm

/-! ## What a chain leaves -/

/-- The float a chain brings: the first shift's, unless that took over another. -/
def floatGain (previous : Option ChainShift) : List ChainShift → Int
  | [] => 0
  | shift :: _ => if previous.isSome then 0 else shift.float

/-- What a chain counts beyond what it took over. -/
def countGain (previous : Option ChainShift) : List ChainShift → Int
  | [] => 0
  | shift :: rest => lastCount shift rest - previous.elim 0 (·.counted)

def differenceGain (previous : Option ChainShift) : List ChainShift → Int
  | [] => 0
  | shift :: rest =>
    (previous.elim 0 fun before => shift.float - before.counted) + handoverDifferences shift rest

/-- What the rest of the log leaves of a chain, from wherever in the chain it begins. -/
theorem chain_gains (log : List RecordedEvent) :
    (∀ rollups last previous todo, Between rollups date drawer last previous todo log →
      Gains (drawerAt rollups date drawer)
        (drawerAt (log.foldl (fold .exact) rollups) date drawer)
        (floatGain previous todo) (countGain previous todo) (differenceGain previous todo)) ∧
    ∀ rollups last previous current todo,
      Within rollups date drawer last previous current todo log →
      Gains (drawerAt rollups date drawer)
        (drawerAt (log.foldl (fold .exact) rollups) date drawer)
        0 (lastCount current todo - previous.elim 0 (·.counted))
          (handoverDifferences current todo) := by
  -- the two phases alternate as the log is read
  induction log with
  | nil =>
    constructor
    · intro rollups last previous todo h
      cases todo with
      | nil => exact .of_eq rfl
      | cons => exact absurd h.moves (cons_ne_nil _ _).symm
    · intro rollups last previous current todo h
      exact absurd h.moves (cons_ne_nil _ _).symm
  | cons event log ih =>
    obtain ⟨ihBetween, ihWithin⟩ := ih
    constructor
    · intro rollups last previous todo h
      rcases drawerMoves_cons h.moves with ⟨hnone, hmoves⟩ |
        ⟨move, rest, hchain, hdate, hmove, hmoves⟩
      · have hgains := (gains_of_no_move hnone).trans (ihBetween _ _ _ _ (h.idle hmoves .exact))
        rwa [zero_add, zero_add, zero_add] at hgains
      · cases todo with
        | nil => exact absurd hchain (cons_ne_nil _ _).symm
        | cons =>
          obtain ⟨rfl, rfl⟩ := List.cons.inj hchain
          have hopened := gains_of_opened hdate hmove (h.outgoing hmove)
          have hgains := hopened.trans (ihWithin _ _ _ _ _ (h.opens hmove hmoves .exact))
          cases previous <;> simpa [floatGain, countGain, differenceGain] using hgains
    · intro rollups last previous current todo h
      rw [foldl_cons]
      rcases drawerMoves_cons h.moves with ⟨hnone, hmoves⟩ |
        ⟨move, rest, hchain, hdate, hmove, hmoves⟩
      · have hgains := (gains_of_no_move hnone).trans (ihWithin _ _ _ _ _ (h.idle hmoves .exact))
        rwa [zero_add, zero_add, zero_add] at hgains
      · obtain ⟨rfl, rfl⟩ := List.cons.inj hchain
        have hclosed : Gains (drawerAt rollups date drawer) _ _ _ _ := gains_of_closed hdate hmove
        have hgains := hclosed.trans (ihBetween _ _ _ _ (h.closes hmove hmoves .exact))
        have hcarried : rollups.handovers.carried[current.id]?.elim 0 snd =
            previous.elim 0 (·.counted) := by
          rw [h.carried]
          cases previous <;> rfl
        rw [hcarried] at hgains
        cases todo <;>
          simpa [floatGain, countGain, differenceGain, lastCount, handoverDifferences] using hgains

end Chain

/-- An event of the first trading day on the store's one drawer. -/
def drawerEvent (n : Nat) (payload : Payload) : RecordedEvent :=
  ⟨⟨n⟩, ⟨0⟩, ⟨0⟩, none, .known payload⟩

/-- A shift that counts 5 short hands over, the next finds 5 less again and counts 2 over. -/
def handoverLog : List RecordedEvent :=
  [drawerEvent 1 (.cashShiftOpened
      ⟨⟨1⟩, .few 100, none, none, .none, none⟩),
    drawerEvent 2 (.cashDrawerPaidIn (.few 20) ⟨7⟩ none),
    drawerEvent 3 (.cashShiftClosed
      ⟨⟨1⟩, .few 120, .few 115,
        .dong (-5) (by decide) (by decide), none, none⟩),
    drawerEvent 4 (.cashShiftOpened
      ⟨⟨2⟩, .few 110, none, none, .none, some ⟨1⟩⟩),
    drawerEvent 5 (.cashShiftClosed
      ⟨⟨2⟩, .few 110, .few 112,
        .few 2, none, none⟩)]

end PosFramework
