import TickScript.Settings.Record

/-!
# Settings of structure nodes

Spawns with the ways to choose a body, links, market orders and towers.
-/

namespace TickScript.Kind

open TickScript.Settings

/-- A part of a unit's body. -/
inductive BodyPart where
  | work
  | carry
  | move
  | attack
  | rangedAttack
  | heal
  | tough
  | claim
  deriving DecidableEq

namespace BodyPart

/-- The parts in the order in which a weighted body is filled. -/
def priority : List BodyPart :=
  [.work, .carry, .move, .attack, .rangedAttack, .heal, .tough, .claim]

/-- The body of a spawn that names none. -/
def defaultBody : List BodyPart := [.work, .carry, .move]

/-- The place of a part in the order of parts. -/
def rank : BodyPart → Nat
  | .work => 0
  | .carry => 1
  | .move => 2
  | .attack => 3
  | .rangedAttack => 4
  | .heal => 5
  | .tough => 6
  | .claim => 7

/-- Parts are ordered by their place. -/
instance : Ord BodyPart := ⟨fun first second => compare first.rank second.rank⟩

instance : Std.TransOrd BodyPart where
  eq_swap := fun {first second} => by
    show compare first.rank second.rank = (compare second.rank first.rank).swap
    exact Std.OrientedCmp.eq_swap
  isLE_trans := fun {first second third} h h' => by
    change (compare first.rank second.rank).isLE = true at h
    change (compare second.rank third.rank).isLE = true at h'
    show (compare first.rank third.rank).isLE = true
    exact Std.TransCmp.isLE_trans h h'

instance : Std.LawfulEqOrd BodyPart where
  eq_of_compare := fun {first second} h => by
    have hrank : first.rank = second.rank := Std.LawfulEqOrd.eq_of_compare h
    cases first <;> cases second <;> simp_all [rank]

/-- The constant of the script language for a part. -/
def constant : BodyPart → String
  | .work => "WORK"
  | .carry => "CARRY"
  | .move => "MOVE"
  | .attack => "ATTACK"
  | .rangedAttack => "RANGED_ATTACK"
  | .heal => "HEAL"
  | .tough => "TOUGH"
  | .claim => "CLAIM"

/-- The names of parts. -/
def choice : Choice BodyPart where
  all := priority
  name
    | .work => "work"
    | .carry => "carry"
    | .move => "move"
    | .attack => "attack"
    | .rangedAttack => "ranged_attack"
    | .heal => "heal"
    | .tough => "tough"
    | .claim => "claim"
  aliases
    | .rangedAttack => ["RANGED_ATTACK", "rangedAttack"]
    | part => [part.constant]

end BodyPart

/-- How the body of a spawned unit is chosen. -/
inductive BodyStrategy where
  | fixed
  | weighted
  | preset
  deriving DecidableEq

/-- The names of body strategies. -/
def BodyStrategy.choice : Choice BodyStrategy where
  all := [.fixed, .weighted, .preset]
  name
    | .fixed => "fixed"
    | .weighted => "weighted"
    | .preset => "preset"

/-- The settings of a spawn. -/
structure Spawn where
  spawn : Option String := none
  name : String := "worker"
  body : BodyStrategy := .fixed
  parts : List BodyPart := BodyPart.defaultBody
  weights : Keyed BodyPart Nat := .empty
  maxParts : Nat := 50
  presets : Keyed Nat (List BodyPart) := .empty
  level : Option Nat := none
  memory : Literal := .undefined
  deriving BEq

/-- How a spawn is read. -/
def Spawn.record : Record Spawn where
  name := "SpawnConfig"
  fields := [
    .defaulted "spawn" (.optional .text) (·.spawn) fun record spawn => { record with spawn },
    .defaulted "name" .text (·.name) fun record name => { record with name },
    .defaulted "body" BodyStrategy.choice.codec (·.body) fun record body => { record with body },
    .defaulted "parts" (.list BodyPart.choice.codec) (·.parts)
      fun record parts => { record with parts },
    .defaulted "weights" (.keyed BodyPart.choice.key .unsigned32) (·.weights)
      fun record weights => { record with weights },
    .defaulted "maxParts" .unsigned32 (·.maxParts) fun record maxParts => { record with maxParts },
    .defaulted "presets" (.keyed .unsigned32 (.list BodyPart.choice.codec)) (·.presets)
      fun record presets => { record with presets },
    .defaulted "level" (.optional .unsigned32) (·.level) fun record level => { record with level },
    .defaulted "memory" .literal (·.memory) fun record memory => { record with memory }]
  blank := {}

/-- The settings of a link. -/
structure Link where
  source : Option String := none
  target : Option String := none
  amount : Option Nat := none
  deriving BEq

/-- How a link is read. -/
def Link.record : Record Link where
  name := "LinkConfig"
  fields := [
    .defaulted "source" (.optional .text) (·.source) fun record source => { record with source },
    .defaulted "target" (.optional .text) (·.target) fun record target => { record with target },
    .defaulted "amount" (.optional .unsigned32) (·.amount)
      fun record amount => { record with amount }]
  blank := {}

/-- What is done on the market. -/
inductive MarketMode where
  | buy
  | sell
  | deal
  deriving DecidableEq

/-- The names of market modes. -/
def MarketMode.choice : Choice MarketMode where
  all := [.buy, .sell, .deal]
  name
    | .buy => "buy"
    | .sell => "sell"
    | .deal => "deal"

/-- The settings of a market node. -/
structure Market where
  mode : MarketMode := .sell
  resource : String := "RESOURCE_ENERGY"
  price : Option Binary64 := none
  amount : Option Nat := none
  orderId : Option String := none
  deriving BEq

/-- How a market node is read. -/
def Market.record : Record Market where
  name := "MarketConfig"
  fields := [
    .defaulted "mode" MarketMode.choice.codec (·.mode) fun record mode => { record with mode },
    .defaulted "resource" .text (·.resource) fun record resource => { record with resource },
    .defaulted "price" (.optional .number) (·.price) fun record price => { record with price },
    .defaulted "amount" (.optional .unsigned32) (·.amount)
      fun record amount => { record with amount },
    .defaulted "orderId" (.optional .text) (·.orderId)
      fun record orderId => { record with orderId }]
  blank := {}

/-- What a tower does. -/
inductive TowerAction where
  | heal
  | attack
  | repair
  deriving DecidableEq

/-- The name of a tower action, which is also its method. -/
def TowerAction.name : TowerAction → String
  | .heal => "heal"
  | .attack => "attack"
  | .repair => "repair"

/-- The names of tower actions. -/
def TowerAction.choice : Choice TowerAction where
  all := [.heal, .attack, .repair]
  name := TowerAction.name

/-- The settings of a tower. -/
structure Tower where
  priorities : List TowerAction := [.heal, .attack, .repair]
  healBelow : Binary64 := .ofRatio false 1 1
  repairBelow : Binary64 := .ofRatio false 1 2
  minRepairEnergy : Nat := 500
  deriving BEq

/-- How a tower is read. -/
def Tower.record : Record Tower where
  name := "TowerConfig"
  fields := [
    .defaulted "priorities" (.list TowerAction.choice.codec) (·.priorities)
      fun record priorities => { record with priorities },
    .defaulted "healBelow" .number (·.healBelow) fun record healBelow => { record with healBelow },
    .defaulted "repairBelow" .number (·.repairBelow)
      fun record repairBelow => { record with repairBelow },
    .defaulted "minRepairEnergy" .unsigned32 (·.minRepairEnergy)
      fun record minRepairEnergy => { record with minRepairEnergy }]
  blank := {}

end TickScript.Kind
