import ChipEight.Argument.Arithmetic

/-!
Which interpreter's habits a machine follows and how fast it runs. `Proposal.settings` accepts or
refuses what a caller proposes.
-/

namespace ChipEight

structure Frequency where
  perSecond : Number
  text : String := perSecond.text
  positive : ¬ perSecond ≤ .whole 0

def Frequency.whole (n : Nat) (positive : 0 < n := by decide) : Frequency where
  perSecond := .whole n
  positive := by
    rw [Number.whole_le_whole]
    omega

structure Settings where
  implementation : Implementation := .cosmacVip
  cyclesPerSecond : Frequency := .whole defaultCyclesPerSecond
  frameRate : Frequency := .whole defaultFrameRate
  idleSleep : Number := .double 0.001

structure Proposal where
  implementation : Value := .text Implementation.cosmacVip.name
  cyclesPerSecond : Value := .whole defaultCyclesPerSecond
  frameRate : Value := .whole defaultFrameRate
  idleSleep : Value := .double 0.001

def Implementation.ofValue? : Value → Option Implementation
  | .text name => ofName? name
  | _ => none

namespace Proposal

def change (p : Proposal) (field : String × Value) : Except Failure Proposal :=
  match field with
  | ("implementation", v) => .ok { p with implementation := v }
  | ("cycles_per_second", v) => .ok { p with cyclesPerSecond := v }
  | ("frame_rate", v) => .ok { p with frameRate := v }
  | ("idle_sleep", v) => .ok { p with idleSleep := v }
  | (name, _) => .error (.unknownSetting "Config" name)

def ofFields (fields : List (String × Value)) : Except Failure Proposal :=
  fields.foldlM change {}

def rate (setting : String) (v : Value) : Except Failure Frequency :=
  match v.toNumber? with
  | none => .error (.incomparable Relation.atMost.sign v (.whole 0))
  | some n =>
    if h : n ≤ .whole 0 then .error (.rateNotPositive setting v)
    else .ok { perSecond := n, text := v.plain, positive := h }

def paced (p : Proposal) : Except Failure Settings := do
  let some implementation := Implementation.ofValue? p.implementation
    | throw (.unknownImplementation p.implementation)
  let cyclesPerSecond ← rate "cycles_per_second" p.cyclesPerSecond
  let frameRate ← rate "frame_rate" p.frameRate
  return { implementation, cyclesPerSecond, frameRate }

def settings (p : Proposal) : Except Failure Settings := do
  let settings ← p.paced
  let idleSleep ← p.idleSleep.asNumber (.incomparable Relation.below.sign p.idleSleep (.whole 0))
  if idleSleep < .whole 0 then throw (.idleSleepNegative p.idleSleep)
  return { settings with idleSleep }

end Proposal

def Settings.isDefault (s : Settings) : Bool :=
  let d : Settings := {}
  s.implementation = d.implementation
    && s.cyclesPerSecond.perSecond.agrees d.cyclesPerSecond.perSecond
    && s.frameRate.perSecond.agrees d.frameRate.perSecond && s.idleSleep.agrees d.idleSleep

end ChipEight
