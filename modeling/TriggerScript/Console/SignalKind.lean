import TriggerScript.Signal

/-!
# Signals from the console

The signals that can be delivered by hand, and how they are built from the details of a request.
-/

namespace TriggerScript

inductive SignalKind where
  | aggro
  | death
  | kill
  | evade
  | reachedHome
  | respawn
  | reset
  | despawn
  | charmed
  | uncharmed
  | damaged
  | spellHit
  | emote
  | gossipHello
  | dataSet
deriving DecidableEq, Inhabited

/-- What a request says about a signal beside its kind. -/
structure SignalDetails where
  invoker : Option Handle := none
  value : UInt32 := 0
  field : UInt32 := 0
deriving DecidableEq

namespace SignalKind

def all : List SignalKind :=
  [aggro, death, kill, evade, reachedHome, respawn, reset, despawn, charmed, uncharmed, damaged,
    spellHit, emote, gossipHello, dataSet]

def title : SignalKind → String
  | aggro => "Aggro"
  | death => "Death"
  | kill => "Kill"
  | evade => "Evade"
  | reachedHome => "ReachedHome"
  | respawn => "Respawn"
  | reset => "Reset"
  | despawn => "Despawn"
  | charmed => "Charmed"
  | uncharmed => "Uncharmed"
  | damaged => "Damaged"
  | spellHit => "SpellHit"
  | emote => "Emote"
  | gossipHello => "GossipHello"
  | dataSet => "DataSet"

def word : SignalKind → String
  | aggro => "aggro"
  | death => "death"
  | kill => "kill"
  | evade => "evade"
  | reachedHome => "reached-home"
  | respawn => "respawn"
  | reset => "reset"
  | despawn => "despawn"
  | charmed => "charmed"
  | uncharmed => "uncharmed"
  | damaged => "damaged"
  | spellHit => "spell-hit"
  | emote => "emote"
  | gossipHello => "gossip-hello"
  | dataSet => "data-set"

def ofWord? (w : String) : Option SignalKind := all.find? (·.word == w)

/-- The signal of a kind. Some kinds need an invoker. A kill without a value has a player as its
victim. -/
def signal? (details : SignalDetails) : SignalKind → Option Signal
  | aggro => details.invoker.map .aggro
  | death => some (.death details.invoker)
  | kill => details.invoker.map fun victim => .kill victim details.value (details.value == 0)
  | evade => some .evade
  | reachedHome => some .reachedHome
  | respawn => some .respawn
  | reset => some .reset
  | despawn => some .despawn
  | charmed => some (.charmed details.invoker true)
  | uncharmed => some (.charmed details.invoker false)
  | damaged => details.invoker.map (.damaged · details.value)
  | spellHit => details.invoker.map (.spellHit · details.value 0)
  | emote => details.invoker.map (.receiveEmote · details.value)
  | gossipHello => details.invoker.map .gossipHello
  | dataSet => some (.dataSet details.field details.value details.invoker)

end SignalKind

end TriggerScript
