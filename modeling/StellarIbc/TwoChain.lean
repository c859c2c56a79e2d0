import StellarIbc.LedgerChain

/-!
# Two linked chains

Two chains, each with a router, whose clients are registered as each other's
counterparty.  They share nothing: a step of one chain sees the other only through
its light client, which answers truthfully about the ledgers the other has closed.
The results hold of every interleaving and go through the runs of the two chains,
which `Run.on` projects out.
-/

namespace StellarIbc.TwoChain

open Router

variable {X : Type}

inductive Side where
  | a
  | b
deriving DecidableEq

def Side.other : Side → Side
  | .a => .b
  | .b => .a

@[simp] theorem Side.other_other (side : Side) : side.other.other = side := by
  cases side <;> rfl

theorem Side.other_ne (side : Side) : side.other ≠ side := by
  cases side <;> decide

/-- The client each chain has for the other, and the commitment prefix of each chain's
store as the other registered it. -/
structure Link where
  client : Side → HostString
  commitmentPrefix : Side → List Bytes

abbrev System (X : Type) := Side → Chain X

/-- The light client of `side` answers truthfully: what it accepts at a height holds of
the other chain's provable store after that ledger, with the registered prefix stripped,
and its timestamps are those of the ledgers, 0 where it knows none. -/
structure IdealClient (link : Link) (system : System X) (side : Side) (env : Env X)
    (lcAddr : Address) : Prop where
  membership : ∀ height proof path value ext ext',
    env.invoke lcAddr (.verifyMembership (link.client side) height proof path value) ext =
      some (true, ext') →
    ∃ ledger key, (system side.other).closed[height.toNat]? = some ledger ∧
      path = prefixedPath (link.commitmentPrefix side.other) key ∧
      ledger.provable key = some value
  nonMembership : ∀ height proof path ext ext',
    env.invoke lcAddr (.verifyNonMembership (link.client side) height proof path) ext =
      some (true, ext') →
    ∃ ledger key, (system side.other).closed[height.toNat]? = some ledger ∧
      path = prefixedPath (link.commitmentPrefix side.other) key ∧
      ledger.provable key = none
  timestamp : ∀ height ext timestamp ext',
    env.invoke lcAddr (.getTimestampAtHeight (link.client side) height) ext =
      some (timestamp, ext') →
    (timestamp : UInt64) = 0 ∨ ∃ ledger,
      (system side.other).closed[height.toNat]? = some ledger ∧ timestamp = ledger.timestamp

/-- A step of one chain. -/
structure Act (X : Type) where
  side : Side
  act : Chain.Act X

def Step (link : Link) (sha256 : Bytes → Hash) (pre : System X) (act : Act X)
    (post : System X) : Prop :=
  Chain.Step sha256 (pre act.side) act.act (post act.side) ∧
    post act.side.other = pre act.side.other ∧
    ∀ tx lcAddr, act.act = .router (.tx tx) →
      (pre act.side).router.storage.clientLcAddr (link.client act.side) = some lcAddr →
      IdealClient link pre act.side tx.env lcAddr

def Init (system : System X) : Prop := ∀ side, (system side).Init

abbrev Run (link : Link) (sha256 : Bytes → Hash) :
    List (Entry (System X) (Act X)) → System X → Prop :=
  Reach Init (Step link sha256)

/-- The two clients are registered as each other's counterparty. -/
def Linked (link : Link) (system : System X) : Prop :=
  ∀ side, (system side).router.storage.counterparty (link.client side) =
    some ⟨link.client side.other, link.commitmentPrefix side.other⟩

/-- The strings hashed by the calls of a run. -/
def hashedIn (history : List (Entry (System X) (Act X))) : Set Bytes :=
  { data | ∃ entry ∈ history, data ∈ hashedStrings entry.act.act.log }

/-! ### Projection onto a chain -/

/-- The chain step an act is for `side`. -/
def Act.on (side : Side) (act : Act X) : Option (Chain.Act X) :=
  if act.side = side then some act.act else none

/-- `entry` as a step of the chain of `side`. -/
def onChain (side : Side) (entry : Entry (System X) (Act X)) :
    Entry (Chain X) (Chain.Act X) :=
  ⟨entry.pre side, entry.act.act, entry.post side⟩

/-- The steps of `side` in a history. -/
def historyOf (side : Side) (history : List (Entry (System X) (Act X))) :
    List (Entry (Chain X) (Chain.Act X)) :=
  history.filterMap fun entry =>
    (entry.act.on side).map fun act => ⟨entry.pre side, act, entry.post side⟩

variable {link : Link} {sha256 : Bytes → Hash}
variable {history before after : List (Entry (System X) (Act X))}
variable {system system' : System X}
variable {entry : Entry (System X) (Act X)} {side : Side} {packet : Packet}
variable {log : List Effect}

theorem mem_historyOf {step : Entry (Chain X) (Chain.Act X)} :
    step ∈ historyOf side history ↔
      ∃ entry ∈ history, entry.act.side = side ∧ onChain side entry = step := by
  unfold historyOf Act.on onChain
  rw [List.mem_filterMap]
  constructor
  · rintro ⟨entry, hmem, hstep⟩
    split at hstep
    · exact ⟨entry, hmem, ‹_›, Option.some.inj hstep⟩
    · cases hstep
  · rintro ⟨entry, hmem, hside, rfl⟩
    exact ⟨entry, hmem, by simp [hside]⟩

/-- The steps of one chain in a run form a run of that chain. -/
theorem Run.on (hrun : Run link sha256 history system) (side : Side) :
    Chain.Run sha256 (historyOf side history) (system side) := by
  apply hrun.project (fun system => system side) (Act.on side)
  · intro system hinit
    exact hinit side
  · intro pre act post chainAct hstep hact
    unfold Act.on at hact
    split at hact
    · next hside =>
        subst hside
        cases hact
        exact hstep.1
    · cases hact
  · intro pre act post hstep hact
    have hside : side = act.side.other := by
      cases side <;> cases hside : act.side <;> simp_all [Act.on, Side.other]
    rw [hside]
    exact hstep.2.1

theorem Step.on_cases {pre post : System X} {act : Act X}
    (hstep : Step link sha256 pre act post) (side : Side) :
    act.side = side ∧ Chain.Step sha256 (pre side) act.act (post side) ∨
      post side = pre side := by
  by_cases hside : act.side = side
  · subst hside
    exact .inl ⟨rfl, hstep.1⟩
  · have hother : side = act.side.other := by
      cases side <;> cases hact : act.side <;> simp_all [Side.other]
    rw [hother]
    exact .inr hstep.2.1

/-- A closed ledger stays closed. -/
theorem closed_final (hrun : Run link sha256 history system) (hmem : entry ∈ history)
    {ledger : Ledger} (hledger : ledger ∈ (entry.pre side).closed) :
    ledger ∈ (system side).closed := by
  have hstable : ∀ entry : Entry (System X) (Act X),
      Step link sha256 entry.pre entry.act entry.post →
      ledger ∈ (entry.pre side).closed → ledger ∈ (entry.post side).closed := by
    intro entry hstep hledger
    rcases hstep.on_cases side with ⟨-, hchain⟩ | hsame
    · have hstep' : Chain.Step sha256 (onChain side entry).pre (onChain side entry).act
          (onChain side entry).post := hchain
      exact hstep'.closed_stays hledger
    · rw [hsame]
      exact hledger
  exact hrun.since (fun system => ledger ∈ (system side).closed) hstable hmem
    (hstable entry (hrun.step_of_mem hmem) hledger)

/-! ### Truthful light clients -/

/-- The ledger of the other chain at a height. -/
def ledgerAt (system : System Unit) (side : Side) (height : UInt64) : Option Ledger :=
  (system side.other).closed[height.toNat]?

/-- What the other chain's ledger stores at a path, with the registered prefix stripped. -/
def storedAt (link : Link) (system : System Unit) (side : Side) (height : UInt64)
    (path : Bytes) : Option (Option Bytes) := do
  let ledger ← ledgerAt system side height
  let chunks := (link.commitmentPrefix side.other).flatten
  if path.take chunks.length = chunks then
    return ledger.provable (path.drop chunks.length)
  else
    none

/-- A light client that looks the answer up; the apps accept everything. -/
def truthfulAnswer (link : Link) (system : System Unit) (side : Side) :
    (call : Invocation) → call.Result
  | .verifyMembership _ height _ path value =>
      storedAt link system side height path = some (some value)
  | .verifyNonMembership _ height _ path => storedAt link system side height path = some none
  | .getTimestampAtHeight _ height =>
      ((ledgerAt system side height).map Ledger.timestamp).getD 0
  | call => call.accept

def truthfulEnv (link : Link) (system : System Unit) (side : Side) : Env Unit where
  timestamp := (system side).timestamp
  authorized _ := true
  invoke _ call _ := some (truthfulAnswer link system side call, ())

theorem storedAt_eq_some {system : System Unit} {height : UInt64} {path : Bytes}
    {found : Option Bytes}
    (h : storedAt link system side height path = some found) :
    ∃ ledger key, (system side.other).closed[height.toNat]? = some ledger ∧
      path = prefixedPath (link.commitmentPrefix side.other) key ∧
      ledger.provable key = found := by
  unfold storedAt ledgerAt at h
  cases hledger : (system side.other).closed[height.toNat]? with
  | none => simp [hledger] at h
  | some ledger =>
      simp only [hledger, Option.bind_eq_bind, Option.bind_some] at h
      split at h
      · next hchunks =>
          cases h
          refine ⟨ledger, _, rfl, ?_, rfl⟩
          have hpath := List.take_append_drop
            (link.commitmentPrefix side.other).flatten.length path
          rw [hchunks] at hpath
          exact hpath.symm
      · cases h

theorem truthfulEnv_ideal (link : Link) (system : System Unit) (side : Side)
    (lcAddr : Address) :
    IdealClient link system side (truthfulEnv link system side) lcAddr := by
  refine ⟨?_, ?_, ?_⟩
  · intro height proof path value ext ext' h
    have hanswer := congrArg Prod.fst (Option.some.inj h)
    exact storedAt_eq_some (of_decide_eq_true hanswer)
  · intro height proof path ext ext' h
    have hanswer := congrArg Prod.fst (Option.some.inj h)
    exact storedAt_eq_some (of_decide_eq_true hanswer)
  · intro height ext timestamp ext' h
    have hanswer := congrArg Prod.fst (Option.some.inj h)
    have htimestamp : ((ledgerAt system side height).map Ledger.timestamp).getD 0 =
      timestamp := hanswer
    unfold ledgerAt at htimestamp
    cases hledger : (system side.other).closed[height.toNat]? with
    | none =>
        simp only [hledger, Option.map_none, Option.getD_none] at htimestamp
        exact .inl htimestamp.symm
    | some ledger =>
        simp only [hledger, Option.map_some, Option.getD_some] at htimestamp
        exact .inr ⟨ledger, rfl, htimestamp.symm⟩

/-! ### Execution -/

inductive Command where
  | call (side : Side) (call : Call)
  | close (side : Side) (timestamp : UInt64)

def execute (link : Link) (sha256 : Bytes → Hash) (system : System Unit) :
    Command → Entry (System Unit) (Act Unit)
  | .call side call =>
      let entry := (system side).router.execute sha256 (truthfulEnv link system side) call
      ⟨system, ⟨side, .router entry.act⟩,
        Function.update system side { system side with router := entry.post }⟩
  | .close side timestamp =>
      let next := if (system side).timestamp ≤ timestamp then timestamp
        else (system side).timestamp
      ⟨system, ⟨side, .close next⟩,
        Function.update system side ⟨(system side).router, next,
          (system side).closed ++
            [⟨(system side).timestamp, (system side).router.storage.provable⟩]⟩⟩

def executeAll (link : Link) (sha256 : Bytes → Hash)
    (history : List (Entry (System Unit) (Act Unit))) (system : System Unit)
    (commands : List Command) : List (Entry (System Unit) (Act Unit)) × System Unit :=
  feed (execute link sha256) history system commands

def Command.guarded : Command → Bool
  | .call _ entrypoint => entrypoint.kind ≠ .rawSetter
  | .close _ _ => true

theorem Run.execute {history : List (Entry (System Unit) (Act Unit))}
    {system : System Unit} (hrun : Run link sha256 history system) {command : Command}
    (hguarded : command.guarded = true) :
    Run link sha256 (history ++ [TwoChain.execute link sha256 system command])
      (TwoChain.execute link sha256 system command).post := by
  cases command with
  | call side entrypoint =>
      obtain ⟨-, hstep, outcome, hact⟩ := Router.State.execute_step sha256
        (system side).router (truthfulEnv link system side) entrypoint
      refine hrun.next ⟨⟨⟨?_, ?_⟩, ?_, ?_, ?_⟩, ?_, ?_⟩
      · simpa only [Function.update_self] using hstep
      · have hkind : entrypoint.kind ≠ .rawSetter := of_decide_eq_true hguarded
        rw [hact]
        exact hkind
      · rintro _ htx
        rw [hact, Router.Act.tx.injEq] at htx
        rw [← htx]
        rfl
      · simp only [Function.update_self]
      · simp only [Function.update_self]
      · simp only [Function.update_of_ne side.other_ne]
      · rintro _ lcAddr htx -
        simp only [hact, Chain.Act.router.injEq, Router.Act.tx.injEq] at htx
        rw [← htx]
        exact truthfulEnv_ideal link system side lcAddr
  | close side timestamp =>
      refine hrun.next ⟨⟨?_, ?_⟩, ?_, ?_⟩
      · dsimp only
        split
        · assumption
        · exact UInt64.le_refl _
      · simp only [Function.update_self]
      · simp only [Function.update_of_ne side.other_ne]
      · rintro _ _ ⟨⟩

theorem Run.executeAll {history : List (Entry (System Unit) (Act Unit))}
    {system : System Unit} (hrun : Run link sha256 history system) (commands : List Command)
    (hguarded : ∀ command ∈ commands, command.guarded = true) :
    Run link sha256 (TwoChain.executeAll link sha256 history system commands).1
      (TwoChain.executeAll link sha256 history system commands).2 := by
  have hexecute : ∀ {history system} {command : Command}, command.guarded = true →
      Run link sha256 history system →
      Run link sha256 (history ++ [TwoChain.execute link sha256 system command])
        (TwoChain.execute link sha256 system command).post :=
    fun hcommand hrun => hrun.execute hcommand
  exact Reach.feed hexecute hrun hguarded

/-! ### One exchange -/

def sampleLink : Link where
  client
    | .a => ascii "stellar-0"
    | .b => ascii "cosmos-0"
  commitmentPrefix _ := [ascii "ibc"]

def samplePayload : Payload :=
  ⟨ascii "transfer", ascii "transfer", ascii "ics20-1", ascii "application/json",
    ascii "data"⟩

def samplePacket : Packet := ⟨1, ascii "stellar-0", ascii "cosmos-0", 100, [samplePayload]⟩

def freshSystem : System Unit := fun _ => ⟨freshState, 10, []⟩

def setUp (side : Side) (clientType : HostString) : List Command :=
  [.call side (.registerClientType clientType zeroAddress),
    .call side (.createClient clientType [] [] 1),
    .call side (.registerCounterparty (sampleLink.client side)
      (sampleLink.client side.other) (sampleLink.commitmentPrefix side.other)),
    .call side (.registerPort (ascii "transfer") zeroAddress)]

/-- Both chains are set up, `a` sends the packet and closes the ledger. -/
def sendCommands : List Command :=
  setUp .a (ascii "stellar") ++ setUp .b (ascii "cosmos") ++
    [.call .a (.sendPacket (ascii "stellar-0") 100 [samplePayload]), .close .a 20]

/-- Then `b` receives it and closes the ledger. -/
def recvCommands : List Command :=
  sendCommands ++ [.call .b (.recvPacket samplePacket [] 0), .close .b 30]

def afterSend : List (Entry (System Unit) (Act Unit)) × System Unit :=
  executeAll sampleLink Sha256.sha256 [] freshSystem sendCommands

def afterRecv : List (Entry (System Unit) (Act Unit)) × System Unit :=
  executeAll sampleLink Sha256.sha256 [] freshSystem recvCommands

theorem freshSystem_init : Init freshSystem :=
  fun _ => ⟨⟨zeroAddress, rfl⟩, rfl⟩

theorem afterSend_run : Run sampleLink Sha256.sha256 afterSend.1 afterSend.2 :=
  Run.executeAll (.start freshSystem_init) sendCommands (by decide)

theorem afterRecv_run : Run sampleLink Sha256.sha256 afterRecv.1 afterRecv.2 :=
  Run.executeAll (.start freshSystem_init) recvCommands (by decide)

end StellarIbc.TwoChain
