import StellarIbc.TransferBalances

/-!
# The daily rate limit of the `ibc-transfer` contract

The usage of a denomination on a day is written before the debit, the credit and the call
of the router, any of which may still fail and take it back.  Days come from the ledger
timestamp, caps are set and changed at any time, and without a cap nothing is counted.
The usage that a run leaves is therefore read off its history: what the transfers that
returned sent while a cap was set.
-/

namespace StellarIbc.Transfer

open Contract

variable {X : Type} {codec : Codec} {env : Env X} {pre post : Ctx X} {s s' : Storage}

/-! ### What a history says about caps and usage -/

/-- Units sent on a day against a cap. -/
structure Spending where
  denom : HostString
  day : UInt64
  amount : I128
deriving DecidableEq

/-- What a step spends in the state `s`, on the day of its timestamp: a transfer that returned,
if a cap was set. -/
def Act.spending (s : Storage) : Act X → Option Spending
  | .invoke env (.initiateTransfer _ _ denom amount _ _ _) (.returned _) =>
      if (s.dailyCap denom).isSome then some ⟨denom, env.timestamp / 86400, amount⟩ else none
  | _ => none

/-- The cap that a step sets for `denom`. -/
def Act.capSet (denom : HostString) : Act X → Option I128
  | .invoke _ (.setRateLimit coin cap) (.returned _) => if coin = denom then some cap else none
  | _ => none

def entrySpending (entry : Entry (Ctx X) (Act X)) : Option Spending :=
  entry.act.spending entry.pre.storage

/-- The part of a spending that falls on `denom` and `day`. -/
def Spending.on (denom : HostString) (day : UInt64) (spending : Spending) : ℤ :=
  if spending.denom = denom ∧ spending.day = day then spending.amount.val else 0

/-- The sum of what the transfers of `denom` that returned on `day` sent against a cap. -/
def spent (denom : HostString) (day : UInt64) (history : List (Entry (Ctx X) (Act X))) : ℤ :=
  ((history.filterMap entrySpending).map (Spending.on denom day)).sum

/-- The cap that was set last. -/
def capInForce (denom : HostString) (history : List (Entry (Ctx X) (Act X))) : Option I128 :=
  (history.filterMap fun entry => entry.act.capSet denom).getLast?

/-- `daily_usage` on `day`. -/
def Storage.usedOn (s : Storage) (denom : HostString) (day : UInt64) : ℤ :=
  ((s.usage denom day).getD I128.zero).val

theorem spent_append_singleton (denom : HostString) (day : UInt64)
    (history : List (Entry (Ctx X) (Act X))) (entry : Entry (Ctx X) (Act X)) :
    spent denom day (history ++ [entry]) =
      spent denom day history + ((entrySpending entry).map (Spending.on denom day)).getD 0 := by
  unfold spent
  rw [List.filterMap_append, List.map_append, List.sum_append]
  cases hspending : entrySpending entry with
  | none => simp [hspending]
  | some spending => simp [hspending]

theorem capInForce_append_singleton (denom : HostString)
    (history : List (Entry (Ctx X) (Act X))) (entry : Entry (Ctx X) (Act X)) :
    capInForce denom (history ++ [entry]) =
      (entry.act.capSet denom).or (capInForce denom history) := by
  unfold capInForce
  rw [List.filterMap_append]
  cases hcap : entry.act.capSet denom with
  | none => simp [hcap]
  | some cap => simp [hcap]

/-! ### What a step does to caps and usage -/

/-- No cap and no usage changed. -/
structure KeepsLimits (pre post : Storage) : Prop where
  dailyCap : post.dailyCap = pre.dailyCap
  usage : post.usage = pre.usage

theorem keepsLimits_refl (s : Storage) : KeepsLimits s s := ⟨rfl, rfl⟩

theorem KeepsLimits.trans {middle : Storage} (h : KeepsLimits s middle)
    (h' : KeepsLimits middle s') : KeepsLimits s s' :=
  ⟨h'.dailyCap.trans h.dailyCap, h'.usage.trans h.usage⟩

theorem keepsLimits_debit {who : Address} {denom : HostString} {amount : I128} {result : Unit}
    (h : Returns (debit who denom amount) pre result post) :
    KeepsLimits pre.storage post.storage := by
  obtain ⟨rest, -, -, rfl⟩ := returns_debit.mp h
  exact ⟨rfl, rfl⟩

theorem keepsLimits_credit {who : Address} {denom : HostString} {amount : I128}
    {result : Unit} (h : Returns (credit who denom amount) pre result post) :
    KeepsLimits pre.storage post.storage := by
  obtain ⟨sum, -, rfl⟩ := returns_credit.mp h
  exact ⟨rfl, rfl⟩

theorem Refunds.keepsLimits {value : Bytes} (h : Refunds codec env value pre post) :
    KeepsLimits pre.storage post.storage := by
  rcases h with ⟨packet, -, hrefund⟩
  obtain ⟨sender, middle, -, hdebit, hcredit⟩ := returns_refund.mp hrefund
  exact (keepsLimits_debit hdebit).trans (keepsLimits_credit hcredit)

/-- A transfer does to the limits what the check of the rate limit does. -/
theorem limits_of_initiateTransfer {sender : Address}
    {client denom receiver memo : HostString} {amount : I128} {timeout sequence : UInt64}
    (h : Returns (initiateTransfer codec env sender client denom amount receiver timeout memo)
      pre sequence post) :
    ∃ limited, Returns (enforceRateLimit env denom amount) pre () limited ∧
      KeepsLimits limited.storage post.storage := by
  simp only [initiateTransfer, returns_bind, returns_requireAuth, returns_panicIf,
    returns_orTrap, returns_storage, returns_unwrapOr, returns_invokeSendPacket] at h
  obtain ⟨_, _, ⟨-, rfl⟩, _, _, ⟨-, rfl⟩, _, limited, hlimit, _, debited, hdebit, _, credited,
    hcredit, _, _, ⟨-, rfl⟩, _, _, ⟨-, rfl⟩, _, _, ⟨rfl, rfl⟩, _, _, ⟨-, rfl⟩, ext, -, rfl⟩ := h
  have hkeeps := (keepsLimits_debit hdebit).trans (keepsLimits_credit hcredit)
  exact ⟨limited, hlimit, hkeeps⟩

/-- A cap is set or changed. -/
def Call.SetsCap : Call → Prop
  | .setRateLimit .. => True
  | _ => False

/-- Units are sent. -/
def Call.Sends : Call → Prop
  | .initiateTransfer .. => True
  | _ => False

theorem keepsLimits_of_returns {call : Call} {value : call.Result}
    (h : Returns (call.exec codec env) pre value post) (hcap : ¬ call.SetsCap)
    (hsends : ¬ call.Sends) : KeepsLimits pre.storage post.storage := by
  cases call with
  | setRateLimit denom cap => exact absurd trivial hcap
  | initiateTransfer sender client denom amount receiver timeout memo =>
      exact absurd trivial hsends
  | dailyCap denom =>
      simp only [Call.exec, dailyCap, returns_bind, returns_storage, returns_pure] at h
      obtain ⟨_, _, ⟨-, rfl⟩, -, rfl⟩ := h
      exact keepsLimits_refl _
  | dailyUsage denom =>
      simp only [Call.exec, dailyUsage, returns_bind, returns_storage, returns_pure] at h
      obtain ⟨_, _, ⟨-, rfl⟩, -, rfl⟩ := h
      exact keepsLimits_refl _
  | mint recipient denom amount =>
      simp only [Call.exec, mint, returns_bind, returns_storage, returns_orTrap,
        returns_panicIf, returns_setStorage] at h
      obtain ⟨_, _, ⟨-, rfl⟩, _, _, ⟨rfl, rfl⟩, sum, _, ⟨-, rfl⟩, rfl⟩ := h
      exact ⟨rfl, rfl⟩
  | balanceOf who denom =>
      simp only [Call.exec, balanceOf, returns_bind, returns_storage, returns_pure] at h
      obtain ⟨_, _, ⟨-, rfl⟩, -, rfl⟩ := h
      exact keepsLimits_refl _
  | onRecvPacket callback =>
      obtain ⟨-, -, packet, receiver, -, -, -, hcredit⟩ := returns_onRecvPacket.mp h
      exact keepsLimits_credit hcredit
  | onAcknowledgementPacket callback =>
      obtain ⟨-, -, ⟨-, rfl⟩ | ⟨-, hrefunds⟩⟩ := returns_onAcknowledgementPacket.mp h
      · exact keepsLimits_refl _
      · exact hrefunds.keepsLimits
  | onTimeoutPacket callback =>
      obtain ⟨-, -, hrefunds⟩ := returns_onTimeoutPacket.mp h
      exact hrefunds.keepsLimits

/-- What a step does to the limits: it sets a cap, it counts a spending within the cap, and
every other cap and usage it leaves as it was. -/
structure LimitsStep (act : Act X) (pre post : Storage) : Prop where
  dailyCap : ∀ denom, post.dailyCap denom = (act.capSet denom).or (pre.dailyCap denom)
  usedOn : ∀ denom day, post.usedOn denom day =
    pre.usedOn denom day + ((act.spending pre).map (Spending.on denom day)).getD 0
  within : ∀ spending, act.spending pre = some spending →
    ∃ cap, pre.dailyCap spending.denom = some cap ∧
      post.usedOn spending.denom spending.day ≤ cap.val
  others : ∀ denom day,
    (∀ spending, act.spending pre = some spending →
      ¬ (spending.denom = denom ∧ spending.day = day)) →
    post.usage denom day = pre.usage denom day

theorem KeepsLimits.limitsStep {act : Act X} (h : KeepsLimits s s')
    (hcap : ∀ denom, act.capSet denom = none) (hspending : act.spending s = none) :
    LimitsStep act s s' where
  dailyCap denom := by rw [h.dailyCap, hcap, Option.none_or]
  usedOn denom day := by
    rw [hspending, Option.map_none, Option.getD_none, add_zero, Storage.usedOn,
      Storage.usedOn, h.usage]
  within spending hsome := by
    rw [hspending] at hsome
    cases hsome
  others denom day _ := by rw [h.usage]

theorem limitsStep_setRateLimit {denom : HostString} {cap : I128} {value : Unit}
    (h : Returns (setRateLimit env denom cap) pre value post) :
    LimitsStep (.invoke env (.setRateLimit denom cap) (.returned value)) pre.storage
      post.storage := by
  simp only [setRateLimit, returns_bind, returns_storage, returns_unwrapOr,
    returns_requireAuth, returns_panicIf, returns_setStorage] at h
  obtain ⟨_, _, ⟨rfl, rfl⟩, _, _, ⟨-, rfl⟩, _, _, ⟨-, rfl⟩, _, _, ⟨-, rfl⟩, rfl⟩ := h
  refine ⟨?_, ?_, ?_, ?_⟩
  · intro coin
    by_cases hcoin : denom = coin
    · subst hcoin
      simp [Act.capSet]
    · have hother : ¬ coin = denom := fun heq => hcoin heq.symm
      simp [Act.capSet, hcoin, hother]
  · intro coin day
    exact (add_zero _).symm
  · intro spending hsome
    cases hsome
  · intro coin day _
    rfl

/-- Setting a usage changes what was used of one denomination on one day. -/
theorem usedOn_setUsage (s : Storage) (denom coin : HostString) (day day' : UInt64)
    (total : I128) :
    (s.setUsage denom day total).usedOn coin day' =
      if denom = coin ∧ day = day' then total.val else s.usedOn coin day' := by
  unfold Storage.usedOn
  by_cases h : denom = coin ∧ day = day'
  · obtain ⟨rfl, rfl⟩ := h
    simp
  · have hother : ¬ (coin = denom ∧ day' = day) := fun heq => h ⟨heq.1.symm, heq.2.symm⟩
    simp [h, hother]

theorem limitsStep_initiateTransfer {sender : Address}
    {client denom receiver memo : HostString} {amount : I128} {timeout sequence : UInt64}
    (h : Returns (initiateTransfer codec env sender client denom amount receiver timeout memo)
      pre sequence post) :
    LimitsStep (.invoke env (.initiateTransfer sender client denom amount receiver timeout memo)
      (.returned sequence)) pre.storage post.storage := by
  obtain ⟨limited, hlimit, hkeeps⟩ := limits_of_initiateTransfer h
  rcases returns_enforceRateLimit.mp hlimit with ⟨hnone, rfl⟩ | ⟨cap, total, hcap, htotal, hle, rfl⟩
  · -- without a cap nothing is counted
    apply hkeeps.limitsStep
    · intro coin
      rfl
    · rw [Act.spending, hnone]
      rfl
  · have hspending : Act.spending pre.storage (.invoke env
        (.initiateTransfer sender client denom amount receiver timeout memo)
        (.returned sequence)) = some ⟨denom, env.timestamp / 86400, amount⟩ := by
      rw [Act.spending, hcap]
      rfl
    have hday : currentDay env = env.timestamp / 86400 := rfl
    have hused : ∀ coin day, post.storage.usedOn coin day =
        if denom = coin ∧ env.timestamp / 86400 = day then total.val
        else pre.storage.usedOn coin day := by
      intro coin day
      rw [← hday, ← usedOn_setUsage]
      unfold Storage.usedOn
      rw [hkeeps.usage]
    refine ⟨?_, ?_, ?_, ?_⟩
    · intro coin
      rw [hkeeps.dailyCap]
      rfl
    · intro coin day
      rw [hspending, hused, Option.map_some, Option.getD_some, Spending.on]
      by_cases hsame : denom = coin ∧ env.timestamp / 86400 = day
      · rw [if_pos hsame, if_pos hsame, htotal, hday, hsame.1, hsame.2]
        rfl
      · rw [if_neg hsame, if_neg hsame, add_zero]
    · intro spending hsome
      rw [hspending] at hsome
      cases hsome
      refine ⟨cap, hcap, ?_⟩
      rw [hused, if_pos ⟨rfl, rfl⟩]
      exact hle
    · intro coin day hother
      have hne := hother _ hspending
      rw [hkeeps.usage, Storage.setUsage_usage, if_neg]
      rintro ⟨rfl, rfl⟩
      exact hne ⟨rfl, rfl⟩

theorem Step.limits {act : Act X} (hstep : Step codec pre act post) :
    LimitsStep act pre.storage post.storage := by
  cases act with
  | elsewhere =>
      have hsame : post.storage = pre.storage := hstep
      rw [hsame]
      exact (keepsLimits_refl _).limitsStep (fun _ => rfl) rfl
  | invoke env call outcome =>
      cases outcome with
      | aborted =>
          have hsame : post = pre := hstep.2
          rw [hsame]
          apply (keepsLimits_refl _).limitsStep
          · intro denom
            cases call <;> rfl
          · cases call <;> rfl
      | returned value =>
          have hreturns : Returns (call.exec codec env) pre value post := hstep
          have hkept : ¬ call.SetsCap → ¬ call.Sends →
              KeepsLimits pre.storage post.storage := keepsLimits_of_returns hreturns
          cases call with
          | setRateLimit denom cap => exact limitsStep_setRateLimit hreturns
          | initiateTransfer sender client denom amount receiver timeout memo =>
              exact limitsStep_initiateTransfer hreturns
          | dailyCap denom => exact (hkept id id).limitsStep (fun _ => rfl) rfl
          | dailyUsage denom => exact (hkept id id).limitsStep (fun _ => rfl) rfl
          | mint recipient denom amount => exact (hkept id id).limitsStep (fun _ => rfl) rfl
          | balanceOf who denom => exact (hkept id id).limitsStep (fun _ => rfl) rfl
          | onRecvPacket callback => exact (hkept id id).limitsStep (fun _ => rfl) rfl
          | onAcknowledgementPacket callback =>
              exact (hkept id id).limitsStep (fun _ => rfl) rfl
          | onTimeoutPacket callback => exact (hkept id id).limitsStep (fun _ => rfl) rfl

/-! ### Runs -/

/-- The storage agrees with the history on every cap and every usage. -/
structure LimitsRecorded (history : List (Entry (Ctx X) (Act X))) (s : Storage) : Prop where
  dailyCap : ∀ denom, s.dailyCap denom = capInForce denom history
  usedOn : ∀ denom day, s.usedOn denom day = spent denom day history

theorem limitsRecorded_of_run {history : List (Entry (Ctx X) (Act X))} {ctx : Ctx X}
    (hrun : Run codec history ctx) : LimitsRecorded history ctx.storage := by
  refine hrun.invariant (fun history ctx => LimitsRecorded history ctx.storage) ?_ ?_
  · rintro ctx ⟨router, admin, hstorage⟩
    rw [hstorage]
    exact ⟨fun _ => rfl, fun _ _ => rfl⟩
  · intro history entry hprev ih hstep
    have hlimits := hstep.limits
    constructor
    · intro denom
      rw [hlimits.dailyCap, ih.dailyCap, capInForce_append_singleton]
    · intro denom day
      rw [hlimits.usedOn, ih.usedOn, spent_append_singleton]
      rfl

/-- **The daily rate limit.**  In every run the usage of a denomination on a day is what the
transfers that returned on that day sent of it while a cap was set.  When such a transfer
returned, this sum, with the transfer in it, was at most the cap then in force, which is
the one set last.  No step changes the usage of another denomination or another day. -/
theorem rate_limit_enforced {history : List (Entry (Ctx X) (Act X))} {ctx : Ctx X}
    (hrun : Run codec history ctx) :
    (∀ denom day, ctx.storage.usedOn denom day = spent denom day history) ∧
    (∀ earlier entry later spending, history = earlier ++ entry :: later →
      entrySpending entry = some spending →
      ∃ cap, capInForce spending.denom earlier = some cap ∧
        entry.pre.storage.dailyCap spending.denom = some cap ∧
        spent spending.denom spending.day (earlier ++ [entry]) ≤ cap.val) ∧
    ∀ entry ∈ history, ∀ denom day,
      (∀ spending, entrySpending entry = some spending →
        ¬ (spending.denom = denom ∧ spending.day = day)) →
      entry.post.storage.usage denom day = entry.pre.storage.usage denom day := by
  refine ⟨(limitsRecorded_of_run hrun).usedOn, ?_, ?_⟩
  · intro earlier entry later spending hsplit hspending
    rcases hrun.split hsplit with ⟨hbefore, hstep⟩
    obtain ⟨cap, hcap, hwithin⟩ := hstep.limits.within spending hspending
    have hafter : Run codec (earlier ++ [entry]) entry.post := hbefore.extend rfl hstep
    refine ⟨cap, ?_, hcap, ?_⟩
    · rw [← (limitsRecorded_of_run hbefore).dailyCap]
      exact hcap
    · rw [← (limitsRecorded_of_run hafter).usedOn]
      exact hwithin
  · intro entry hmem denom day hother
    exact (hrun.step_of_mem hmem).limits.others denom day hother

/-! ### Two days -/

/-- The contract with a router that accepts every packet. -/
def dayEnv (day : UInt64) : Env Unit :=
  { sampleEnv with
    timestamp := day * 86400 + 10
    sendPacket := fun _ _ _ _ _ => some (1, ()) }

/-- The host encodes the one address of the sample. -/
def outgoingCodec : Codec :=
  { incomingCodec with addressToXdr := fun _ => (decodeHex zeroAddressText).getD [] }

def sendStroops (amount : I128) : Call :=
  .initiateTransfer sampleReceiver (ascii "cosmos-7") (ascii "stroop") amount
    (ascii "cosmos1receiver") 100 []

/-- A transfer before there is a cap, a transfer within a cap of 100, one beyond it, and one
on the next day after the cap was lowered to 70. -/
def executeLimited : List (Entry (Ctx Unit) (Act Unit)) × Ctx Unit :=
  freshCtx.executeAll outgoingCodec []
    [(dayEnv 0, .mint sampleReceiver (ascii "stroop") (.ofUInt32 500)),
      (dayEnv 0, sendStroops (.ofUInt32 5)),
      (dayEnv 0, .setRateLimit (ascii "stroop") (.ofUInt32 100)),
      (dayEnv 0, sendStroops (.ofUInt32 60)),
      (dayEnv 0, sendStroops (.ofUInt32 41)),
      (dayEnv 0, .setRateLimit (ascii "stroop") (.ofUInt32 70)),
      (dayEnv 1, sendStroops (.ofUInt32 70))]

theorem run_limited : Run outgoingCodec executeLimited.1 executeLimited.2 :=
  Run.executeAll (.start ⟨_, _, rfl⟩) _

theorem rate_limit_enforced_two_days :
    spent (ascii "stroop") 0 executeLimited.1 = 60 ∧
      spent (ascii "stroop") 1 executeLimited.1 = 70 ∧
      executeLimited.2.storage.usedOn (ascii "stroop") 0 = 60 ∧
      executeLimited.2.storage.usedOn (ascii "stroop") 1 = 70 := by
  have hspent : spent (ascii "stroop") 0 executeLimited.1 = 60 ∧
      spent (ascii "stroop") 1 executeLimited.1 = 70 := by
    decide
  have hlimits := rate_limit_enforced run_limited
  refine ⟨hspent.1, hspent.2, ?_, ?_⟩
  · rw [hlimits.1]
    exact hspent.1
  · rw [hlimits.1]
    exact hspent.2

end StellarIbc.Transfer
