import TipJar.Rehearsal.Session

/-! Playing a rehearsal.

Every step gives one answer: its result or the fault it ended with, the calls it
made, the hooks that ran meanwhile with answers of their own, and the lines it
wrote. Since a hook runs at one call only, hooks are nested no deeper than there
are hooks, which bounds the rehearsal. -/
namespace TipJar.Rehearsal

open Session

/-- Steps played for a hook: their answers. -/
abbrev Hooked := List Step → StateM Session (List Value)

/-- Playing that can be cut off in the middle. -/
abbrev Play := OptionT (StateM Session)

/-! ### Calls -/

/-- Whether a limit has passed before anything begins. -/
def isOver (limit : Binary64) : Bool :=
  match limit.compareInt? 0 with
  | some .lt | some .eq => true
  | _ => false

/-- Runs the hooks that wait for a call. -/
def runHooks (hooks : List Hook) (hooked : Hooked) (word : String) (count : Nat) :
    StateM Session Unit :=
  match hooks with
  | [] => return ()
  | hook :: rest => do
    if hook.word == word && hook.count == count then
      let answers ← hooked hook.steps
      let ran := Value.record
        [("on", .text word), ("call", .nat count), ("steps", .list answers)]
      modify fun s => { s with ran := s.ran ++ [ran] }
    runHooks rest hooked word count

/-- Whether a watched loop is stopped by the lookup that has just begun. When the platform keeps
silent longer than the stop waits, the sweep is cut off. -/
def heedLookup (limit : Option Binary64) : Play Unit := do
  let s ← get
  match s.watch with
  | none => return ()
  | some watch =>
    if s.calls.count "lookup" < watch.lookups then return ()
    set { s with watch := none, switch := s.switch.raise }
    let waitsLonger := match limit with
      | some limit => Scalar.numberBefore? (.float watch.limit) (.float limit) == some true
      | none => true
    if s.platform.silentLookup && waitsLonger then failure

def makeCall (setting : Setting) (hooked : Hooked) (c : Call) (limit : Option Binary64) :
    Play (Except CallFault c.Reply) := do
  if (limit.map isOver).getD false then return .error (.timeout "")
  let word := callWord c
  modify fun s => { s with sent := s.sent ++ [callRecord c], calls := word :: s.calls }
  runHooks setting.hooks hooked word ((← get).calls.count word)
  if word == "lookup" then heedLookup limit
  let s ← get
  match s.platform.respond s.posted c with
  | .silence => return .error (.timeout "")
  | .answer (.error why) => return .error why
  | .answer (.ok reply) =>
    if word == "public" then set { s with posted := s.posted + 1 }
    return .ok reply

/-! ### Programs -/

def perform (setting : Setting) (hooked : Hooked) (watched : Bool) {β : Type} : Effect β → Play β
  | .chore c => do
    -- the loop confirms a stop once it has ended; otherwise the next wait lets it through
    if c.isWork && !(← get).switch.running then confirmStops
    OptionT.lift (atDesk c.run)
  | .call c limit => makeCall setting hooked c limit
  | .mention account => return (← get).platform.mention account
  | .wallet =>
    return match setting.wallet with
      | none => .error (.notReady .wallet)
      | some figures => figures
  | .stopping => return watched && (← get).switch.isUp

/-- Runs a program; none if it is cut off, and then the identifiers are what they were before. -/
def runProgram {α : Type} (setting : Setting) (hooked : Hooked) (watched : Bool) (p : Program α) :
    StateM Session (Option (Checked α)) := do
  let context := (← get).desk.context
  let result ← (p.run (perform setting hooked watched)).run
  modify fun s => { s with desk := { s.desk with context } }
  return result

/-- Writes a result out. -/
def finish (result : Checked Shown) : StateM Session (Checked Value) :=
  match result with
  | .ok shown => do return .ok (← withLabels shown.written)
  | .error why => return .error why

/-! ### Units of work -/

/-- The steps of a unit of work: their answers, and the fault that ended them. -/
def runParts : List (Part × Bool) → StateM Session (List Value × Option Fault)
  | [] => return ([], none)
  | (part, catches) :: rest => do
    let work ← withLabels part.work
    match ← finish (← atDesk work) with
    | .ok v =>
      let (answers, fault) ← runParts rest
      return (.record [("ok", v)] :: answers, fault)
    | .error why =>
      if catches then
        let answer := Value.record (← tell why)
        let (answers, fault) ← runParts rest
        return (answer :: answers, fault)
      else return ([], some why)

/-- What a unit of work with several steps answers. -/
def togetherAnswer (rolledBack : Bool) (answers : List Value) (failure : Option Value) : Value :=
  .record ([("rolled_back", .bool rolledBack), ("steps", .list answers)] ++
    (failure.map fun f => ("failure", f)).toList)

/-- Runs several steps in one unit of work. -/
def runTogether (parts : List (Part × Bool)) (rollback : Bool) : StateM Session Value := do
  let before := (← get).desk.tables
  modify fun s => { s with desk := { s.desk with spoiled := false } }
  let (answers, fault) ← runParts parts
  let after := (← get).desk
  if fault.isNone && rollback then
    modify fun s => { s with desk := { s.desk with tables := before, spoiled := false } }
    return togetherAnswer true answers none
  -- the work is done; it is left to keep it or to undo it
  let closed : Ledger.Work Unit := fun _ =>
    (match fault with | some why => .error why | none => .ok (), after)
  match ← atDesk fun desk => ({ desk with tables := before }).transact "tx" closed with
  | .ok () => return togetherAnswer false answers none
  | .error why => return togetherAnswer true answers (some (.record (← tell why)))

/-! ### The background loop -/

/-- Sweeps until so many sweeps have ended or the loop is asked to stop: what each gave, and whether
the last was cut off. -/
def sweepRounds (setting : Setting) (hooked : Hooked) :
    Nat → StateM Session (List Value × Bool)
  | 0 => return ([], false)
  | count + 1 => do
    if (← get).switch.isUp then return ([], false)
    match ← runProgram setting hooked true setting.wiring.sweeper.round with
    | none => return ([], true)
    | some (.error why) => return ([.record (← tell why)], false)
    | some (.ok result) =>
      let answer ← match ← finish (result.map Shown.sweep) with
        | .ok v => pure v
        | .error why => do pure (.record (← tell why))
      let (answers, cutOff) ← sweepRounds setting hooked count
      return (answer :: answers, cutOff)

/-- Runs the sweeper in the background until its time has come. -/
def runLoop (setting : Setting) (hooked : Hooked) (patience : Patience) (limit : Value) :
    StateM Session Value := do
  let sweeper := setting.wiring.sweeper
  let seconds := limit.real.toOption.getD .nan
  let context := (← get).desk.context
  let _ ← runProgram setting hooked false sweeper.noteStarted
  modify fun s => { s with switch := s.switch.start }
  let looked := (← get).calls.count "lookup"
  let (rounds, shown) := match patience with
    | .sweeps count => (count, count)
    | .lookups count => (if looked < count then 1 else 0, 0)
    | .none => (0, 0)
  if let .lookups count := patience then
    modify fun s => { s with watch := some ⟨count, seconds⟩ }
  let (sweeps, cutOff) ← sweepRounds setting hooked rounds
  modify fun s =>
    { s with watch := none, switch := s.switch.stop, desk := { s.desk with context } }
  confirmStops
  if cutOff then
    let _ ← runProgram setting hooked false (Sweeper.noteCutOff limit)
  let _ ← runProgram setting hooked false Sweeper.noteStopped
  return .record
    [("running", .list [.bool false, .bool true, .bool false]),
      ("sweeps", .list (sweeps.take shown)), ("finished", .bool true)]

/-! ### Steps -/

def runTool (setting : Setting) (args : List String) : StateM Session (Checked Value) := do
  match Operator.Request.read args with
  | .error why => return .ok (.record [("exit", .nat why.status)])
  | .ok request =>
    match request.config with
    | some path => return .error (.noFile (Config.normalPath path))
    | none =>
      let trace := Config.traceEvent setting.config false
      match ← atDesk (request.run setting.config trace setting.today) with
      | .error why => return .error why
      | .ok outcome =>
        finish (.ok (.value (.record
          [("exit", .nat outcome.status), ("stdout", .text outcome.out),
           ("stderr", .text outcome.err)])))

/-- Plays a step: what it gives. -/
def Step.play (setting : Setting) (hooked : Hooked) : Step → StateM Session (Checked Value)
  | work part => do
    let work ← withLabels part.work
    finish (← atDesk (·.transact part.operation work))
  | together parts rollback => do return .ok (← runTogether parts rollback)
  | program watched p => do
    let (p, labels) := p setting.wiring (← get).labels
    modify fun s => { s with labels }
    match ← runProgram setting hooked watched p with
    | some result => finish result
    | none => return .ok .null
  | moveClock move => do
    match (Clock.showing (← get).desk.now).bind move with
    | .error why => return .error why
    | .ok clock =>
      modify fun s => { s with desk := { s.desk with now := clock.time } }
      return .ok (.moment clock.time)
  | setPlatform change => do
    modify fun s => { s with platform := change s.platform }
    return .ok .null
  | createTables => do
    atDesk fun desk => (.ok .null, Operator.createTables desk)
  | dropTables => do
    atDesk fun desk => (.ok .null, { desk with tables := none })
  | guard up => do
    atDesk fun desk => (.ok .null, { desk with guarded := up })
  | loop patience limit => do return .ok (← runLoop setting hooked patience limit)
  | stop => do
    modify fun s => { s with switch := s.switch.stop }
    let _ ← runProgram setting hooked false Sweeper.noteStopped
    return .ok (.bool false)
  | requestStop => do
    modify fun s =>
      { s with switch := s.switch.raise, unconfirmed := s.unconfirmed ++ [s.desk.context] }
    return .ok .null
  | operate args => runTool setting args

/-- Plays a step: its answer. -/
def Step.answer (setting : Setting) (hooked : Hooked) (step : Step) : StateM Session Value := do
  let outer ← get
  set { outer with sent := [], ran := [], desk := { outer.desk with lines := [] } }
  let result ← step.play setting hooked
  let outcome ← match result with
    | .ok v => pure [("ok", v)]
    | .error why => tell why
  let s ← get
  set { s with sent := outer.sent, ran := outer.ran,
               desk := { s.desk with lines := outer.desk.lines } }
  let sent := if s.sent.isEmpty then [] else
    [("sent", Value.list (s.sent.map fun record => .list (record.map .text)))]
  let hooks := if s.ran.isEmpty then [] else [("hooks", Value.list s.ran)]
  let logs := if !setting.showsLines then [] else
    [("logs", Value.list (s.desk.lines.map fun (_, fields) => shownLine s.labels fields))]
  return .record (outcome ++ sent ++ hooks ++ logs)

/-- Plays steps one after another, hooks no deeper than `depth`. -/
def playSteps (setting : Setting) : Nat → List Step → StateM Session (List Value)
  | 0, steps => steps.mapM (Step.answer setting fun _ => return [])
  | depth + 1, steps => steps.mapM (Step.answer setting (playSteps setting depth))

/-- Plays a rehearsal: the answers of its steps. -/
def play (setting : Setting) (session : Session) (steps : List Step) : List Value :=
  (playSteps setting setting.hooks.length steps session).1

/-- The level below which nothing is shown. -/
def shownLevel (c : Config) : Nat :=
  match Log.levelOf? c.logging.level with
  | some 0 => Log.inherited
  | some n => max n Log.Level.info.number
  | none => Log.Level.info.number

/-- A ledger in which nothing has happened yet. -/
def Session.opened (c : Config) (start : Moment) (platform : Platform) (hasTables : Bool) :
    Session :=
  { desk :=
      { tables := if hasTables then some .empty else none, ids := .ofNat, nextId := 1, now := start,
        context := .empty, level := shownLevel c, lines := [], guarded := true, spoiled := false }
    platform, labels := .empty, calls := [], posted := 0, sent := [], ran := [], switch := .fresh,
    unconfirmed := [], watch := none }

end TipJar.Rehearsal
