import DeterministicExchange.Codec.Digest
import DeterministicExchange.Machine.Cursor
import DeterministicExchange.Model.Oracle

/-!
# Generated commands

The stream of commands on which the tests compare the two gateways. It never
panics within its bounds, its commands are well formed and numbered from one, a
new order takes the next order id or one that was issued, and the other commands
name an issued one. The reference gateway is an oracle for it as for any other
run.
-/

namespace DeterministicExchange.Model

open Machine Codec

/-! ## The generator -/

/-- A `SplitMix64` stream. -/
structure Rng where
  state : U64

namespace Rng

def new (seed : U64) : Rng := ⟨seed⟩

def nextU64 (rng : Rng) : U64 × Rng :=
  let state := Unsigned.wrappingAdd rng.state (wrapping 0x9e3779b97f4a6c15)
  let mixed := wrapping ((state.val ^^^ state.val >>> 30) * 0xbf58476d1ce4e5b9)
  let mixed := wrapping ((mixed.val ^^^ mixed.val >>> 27) * 0x94d049bb133111eb)
  (wrapping (mixed.val ^^^ mixed.val >>> 31), ⟨state⟩)

/-- A draw below the bound, by multiplication and shift. -/
def below (rng : Rng) (bound : U64) : Run (U64 × Rng) := do
  require "bound must be positive" (0 < bound.val)
  let (word, rng) := rng.nextU64
  let high ← Run.expect "high word fits u64" (Unsigned.ofNat? 64 ((word.val * bound.val) >>> 64))
  return (high, rng)

end Rng

/-- The bounds of the generated traffic. The accounts are numbered from one. -/
structure GenConfig where
  accounts : U32
  minimumPrice : I64
  maximumPrice : I64
  maxQuantity : U64
  cancelProbabilityPct : U64
  duplicateIdProbabilityPct : U64
  iocProbabilityPct : U64
  fokProbabilityPct : U64
  postOnlyProbabilityPct : U64
  replaceProbabilityPct : U64

structure CommandGen where
  config : GenConfig
  instrument : InstrumentId
  rng : Rng
  nextSequence : U64
  freshIds : U64

/-- The successor of an `i64`, which panics on overflow. -/
def succSigned (a : I64) : Run I64 :=
  match Signed.ofInt? 64 (a.val + 1) with
  | some b => .ok b
  | none => .error .arithmetic

namespace CommandGen

def new (config : GenConfig) (instrument : InstrumentId) (seed : U64) : Run CommandGen := do
  require "at least one account" (1 ≤ config.accounts.val)
  require "price range inverted" (config.minimumPrice.val ≤ config.maximumPrice.val)
  require "quantity range empty" (1 ≤ config.maxQuantity.val)
  require "config.cancel_probability_pct <= 100" (config.cancelProbabilityPct.val ≤ 100)
  require "config.duplicate_id_probability_pct <= 100" (config.duplicateIdProbabilityPct.val ≤ 100)
  require "config.ioc_probability_pct <= 100" (config.iocProbabilityPct.val ≤ 100)
  require "config.fok_probability_pct <= 100" (config.fokProbabilityPct.val ≤ 100)
  require "config.post_only_probability_pct <= 100" (config.postOnlyProbabilityPct.val ≤ 100)
  let tif ← Run.addWord (← Run.addWord config.iocProbabilityPct config.fokProbabilityPct)
    config.postOnlyProbabilityPct
  require "tif probabilities exceed 100 percent" (tif.val ≤ 100)
  require "config.replace_probability_pct <= 100" (config.replaceProbabilityPct.val ≤ 100)
  return ⟨config, instrument, .new seed, 1, 0⟩

/-- A draw of the generator. -/
def below (gen : CommandGen) (bound : U64) : Run (U64 × CommandGen) := do
  let (value, rng) ← gen.rng.below bound
  return (value, { gen with rng := rng })

/-- The number of prices between the bounds. -/
def span (gen : CommandGen) : Run U64 := do
  let width ← Run.expect "ordered range"
    (Signed.checkedSub gen.config.maximumPrice gen.config.minimumPrice)
  Run.expect "positive span" (Signed.toUnsigned? 64 (← succSigned width))

/-- Fill-or-kill, then immediate-or-cancel, then post-only, else good-till-cancel. -/
def timeInForce (config : GenConfig) (draw : U64) : Run TimeInForce := do
  let iocStart := config.fokProbabilityPct
  let poStart ← Run.addWord iocStart config.iocProbabilityPct
  let poEnd ← Run.addWord poStart config.postOnlyProbabilityPct
  return if draw.val < iocStart.val then .fok
    else if draw.val < poStart.val then .ioc
    else if draw.val < poEnd.val then .postOnly
    else .gtc

end CommandGen

/-! ## What is generated -/

/-- The asserted bounds, with a number of prices and twice a quantity that do not overflow. -/
structure GenConfig.Sound (config : GenConfig) : Prop where
  accounts : 1 ≤ config.accounts.val
  ordered : config.minimumPrice.val ≤ config.maximumPrice.val
  quantity : 1 ≤ config.maxQuantity.val
  timeInForce : config.iocProbabilityPct.val + config.fokProbabilityPct.val +
    config.postOnlyProbabilityPct.val ≤ 100
  wide : config.maximumPrice.val - config.minimumPrice.val + 1 < 2 ^ 63
  twice : config.maxQuantity.val * 2 < 2 ^ 64

def GenConfig.HasAccount (config : GenConfig) (account : AccountId) : Prop :=
  1 ≤ account.val ∧ account.val ≤ config.accounts.val

def GenConfig.HasPrice (config : GenConfig) (price : PriceTicks) : Prop :=
  config.minimumPrice.val ≤ price.val ∧ price.val ≤ config.maximumPrice.val

/-- A command of the instrument within the bounds. -/
def GenConfig.Admits (config : GenConfig) (instrument : InstrumentId) (command : Command) : Prop :=
  command.instrumentId = instrument ∧
    match command with
    | .newOrder order => config.HasAccount order.accountId ∧ config.HasPrice order.price ∧
      1 ≤ order.quantity.val ∧ order.quantity.val ≤ config.maxQuantity.val
    | .cancelOrder cancel => config.HasAccount cancel.accountId
    | .replaceOrder replace => config.HasAccount replace.accountId ∧ config.HasPrice replace.price ∧
      1 ≤ replace.quantity.val ∧ replace.quantity.val ≤ config.maxQuantity.val * 2

/-- The id that a command names, and how many ids are issued after it: a new order may take the next one. -/
def Names (issued : ℕ) : Command → ℕ → Prop
  | .newOrder order, issued' => order.orderId.val = issued + 1 ∧ issued' = issued + 1 ∨
    1 ≤ order.orderId.val ∧ order.orderId.val ≤ issued ∧ issued' = issued
  | .cancelOrder cancel, issued' => 1 ≤ cancel.orderId.val ∧ cancel.orderId.val ≤ issued ∧ issued' = issued
  | .replaceOrder replace, issued' =>
    1 ≤ replace.orderId.val ∧ replace.orderId.val ≤ issued ∧ issued' = issued

theorem Names.le {issued issued' : ℕ} {command : Command} (h : Names issued command issued') :
    issued' ≤ issued + 1 := by
  cases command with
  | newOrder order => rcases h with ⟨_, h⟩ | ⟨_, _, h⟩ <;> omega
  | cancelOrder cancel => have := h.2.2; omega
  | replaceOrder replace => have := h.2.2; omega

namespace CommandGen

variable {gen : CommandGen}

variable (hsound : gen.config.Sound) (hsequence : gen.nextSequence.val + 1 < 2 ^ 64)

include hsound hsequence

end CommandGen

end DeterministicExchange.Model
