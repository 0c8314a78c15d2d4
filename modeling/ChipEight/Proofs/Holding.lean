import ChipEight.Proofs.History
import ChipEight.Proofs.Reads
import Mathlib.Data.List.Nodup

/-!
A key that was struck stays down until a poll finds its time up, and nothing else releases it.
-/

namespace ChipEight

/-! ### Pads -/

namespace HexPad

variable {keys : List Key} {pad : HexPad}

theorem released_foldl_press (keys : List Key) (pad : HexPad) :
    (keys.foldl press pad).released = pad.released :=
  List.foldlRecOn (motive := fun p : HexPad => p.released = pad.released) keys _ rfl
    fun p same key _ => (p.released_press key).trans same

theorem isDown_foldl_release {j : Key} :
    (keys.foldl release pad).isDown j ↔ j ∉ keys ∧ pad.isDown j := by
  induction keys generalizing pad with
  | nil => simp
  | cons key keys ih =>
    rw [List.foldl_cons, ih, isDown_release, Bool.and_eq_true, decide_eq_true_iff, List.mem_cons,
      not_or, and_left_comm, and_assoc]

theorem released_foldl_release (down : ∀ key ∈ keys, pad.isDown key) (distinct : keys.Nodup) :
    (keys.foldl release pad).released = (keys.getLast?.map Fin.val).or pad.released := by
  rcases List.eq_nil_or_concat keys with rfl | ⟨first, key, rfl⟩
  · rfl
  · rw [List.concat_eq_append] at down distinct ⊢
    have new : key ∉ first := fun earlier =>
      (List.nodup_append.mp distinct).2.2 key earlier key List.mem_cons_self rfl
    have still : (first.foldl release pad).isDown key :=
      isDown_foldl_release.mpr ⟨new, down key (List.mem_append_right _ List.mem_cons_self)⟩
    rw [List.foldl_append, List.foldl_cons, List.foldl_nil, released_release, if_pos still,
      List.getLast?_concat]
    rfl

end HexPad

/-! ### Entries -/

namespace Keyboard

variable {held : List (Key × Value)} {time : Value}

theorem isDue_number {key : Key} {now limit : Number} :
    isDue (.number now) (key, .number limit) ↔ limit ≤ now := by
  simp [isDue, Value.compare, Value.toNumber?, Relation.holds]

def ending (held : List (Key × Value)) (ends : Key × Value → Bool) : List Key :=
  (held.filter ends).map (·.1)

theorem mem_ending {ends : Key × Value → Bool} {key : Key} :
    key ∈ ending held ends ↔ ∃ time, (key, time) ∈ held ∧ ends (key, time) := by
  simp [ending]

def Single (held : List (Key × Value)) : Prop :=
  (held.map (·.1)).Nodup

theorem Single.eq (single : Single held) {key : Key} {a b : Value} (first : (key, a) ∈ held)
    (second : (key, b) ∈ held) : a = b :=
  congrArg Prod.snd (List.inj_on_of_nodup_map single first second rfl)

theorem Single.mem_ending (single : Single held) {ends : Key × Value → Bool} {key : Key}
    (mem : (key, time) ∈ held) : key ∈ ending held ends ↔ ends (key, time) := by
  rw [Keyboard.mem_ending]
  refine ⟨?_, fun past => ⟨time, mem, past⟩⟩
  rintro ⟨other, second, past⟩
  rwa [single.eq mem second]

theorem Single.filter (single : Single held) (p : Key × Value → Bool) : Single (held.filter p) :=
  single.sublist (List.filter_sublist.map _)

theorem Single.renew (single : Single held) (key : Key) (time : Value) :
    Single (renew held key time) := by
  unfold Single Keyboard.renew
  split
  next =>
    have same : (held.map fun e => if e.1 = key then (key, time) else e).map (·.1) =
        held.map (·.1) := by
      rw [List.map_map]
      refine List.map_congr_left fun e _ => ?_
      rw [Function.comp_apply]
      split
      next struck => exact struck.symm
      next => rfl
    rwa [same]
  next none =>
    rw [List.map_append, List.map_singleton, ← List.concat_eq_append]
    refine List.Nodup.concat (fun mem => none ?_) single
    obtain ⟨e, mem, same⟩ := List.mem_map.mp mem
    exact List.any_eq_true.mpr ⟨e, mem, decide_eq_true same⟩

theorem Single.foldl_renew (single : Single held) (keys : List Key) :
    Single (keys.foldl (Keyboard.renew · · time) held) :=
  List.foldlRecOn (motive := Single) keys _ single fun _ single key _ => single.renew key time

end Keyboard

namespace Console

open Keyboard (isDue Single)
open Keystroke (keys)

/-! ### What a history tells -/

def reads (c : Console) : List UInt8 :=
  (c.keyboard.available c.input).1

def typing? (c : Console) : Action → Option (Number × List UInt8)
  | .poll now => some (now, c.reads)
  | .type now bytes => some (now, bytes)
  | _ => none

def Passes (limit : Number) (action : Action) : Prop :=
  ∃ now, action = .poll now ∧ limit ≤ now

section

variable (start : Console) (key : Key)

def Strikes (limit : Number) (before : List Action) (action : Action) : Prop :=
  ∃ now bytes, (start.performAll before).typing? action = some (now, bytes) ∧ key ∈ keys bytes ∧
    limit = now + start.keyboard.hold

/-- A key was struck and is held until a time: it was not struck again, and no poll has come at that
time or after it. -/
def HeldUntil (history : List Action) (limit : Number) : Prop :=
  Since (start.Strikes key limit)
    (fun before action => (∀ later, ¬ start.Strikes key later before action) ∧
      ¬ Passes limit action) history

def Releases (before : List Action) (action : Action) : Prop :=
  ∃ limit, start.HeldUntil key before limit ∧ Passes limit action

def LastReleased (history : List Action) : Prop :=
  Since (start.Releases key) (fun before action => ∀ other, ¬ start.Releases other before action)
    history

end

/-! ### What an action does -/

structure Moves (c : Console) (ends : Key × Value → Bool) (struck : List Key) (time : Number)
    (after : Console) : Prop where
  hold : after.keyboard.hold = c.keyboard.hold
  held : after.keyboard.held =
    struck.foldl (Keyboard.renew · · (.number time)) (c.keyboard.held.filter fun e => !ends e)
  pad : after.pad = struck.foldl HexPad.press
    ((Keyboard.ending c.keyboard.held ends).foldl HexPad.release c.pad)

variable {c after start : Console} {history : List Action}

theorem Moves.still (hold : after.keyboard.hold = c.keyboard.hold)
    (held : after.keyboard.held = c.keyboard.held) (pad : after.pad = c.pad) (time : Number) :
    c.Moves (fun _ => false) [] time after := by
  refine ⟨hold, ?_, ?_⟩
  · simpa using held
  · simpa [Keyboard.ending] using pad

theorem isDue_iff_passes {key : Key} {now limit : Number} :
    isDue (.number now) (key, .number limit) ↔ Passes limit (.poll now) := by
  simp [Keyboard.isDue_number, Passes]

theorem start_keeps_held (c : Console) :
    c.start.keyboard.hold = c.keyboard.hold ∧ c.start.keyboard.held = c.keyboard.held := by
  unfold Console.start Keyboard.start
  cases c.input <;> exact ⟨rfl, rfl⟩

theorem stop_keeps_held (c : Console) :
    c.stop.keyboard.hold = c.keyboard.hold ∧ c.stop.keyboard.held = c.keyboard.held := by
  unfold Console.stop Keyboard.stop
  cases c.keyboard.saved <;> cases c.input <;> exact ⟨rfl, rfl⟩

theorem type_moves (c : Console) (now : Number) (bytes : List UInt8) :
    c.Moves (fun _ => false) (keys bytes) (now + c.keyboard.hold) (c.type now bytes) := by
  rw [type_eq]
  refine ⟨rfl, ?_, ?_⟩
  · rw [Keyboard.holding, Bool.not_false, List.filter_true]
  · rw [Keyboard.ending, List.filter_false]
    rfl

theorem poll_moves (c : Console) (now : Number) :
    c.Moves (isDue (.number now)) (keys c.reads) (now + c.keyboard.hold) (c.poll now) := by
  let expired : Console :=
    { c with
      keyboard := (c.keyboard.expire c.pad (.number now)).1
      pad := (c.keyboard.expire c.pad (.number now)).2 }
  have polled : c.poll now =
      { expired.type now c.reads with input := (c.keyboard.available c.input).2 } := rfl
  rw [polled, type_eq]
  refine ⟨rfl, rfl, ?_⟩
  rw [Keyboard.ending, List.foldl_map]
  rfl

/-! ### Histories -/

/-- A console on which a history has left its traces and nothing else. -/
structure Tracks (start : Console) (history : List Action) (c : Console) : Prop where
  hold : c.keyboard.hold = start.keyboard.hold
  single : Single c.keyboard.held
  down : ∀ key, c.pad.isDown key ↔ ∃ time, (key, time) ∈ c.keyboard.held
  entries : ∀ key time, (key, time) ∈ c.keyboard.held ↔
    ∃ limit, time = .number limit ∧ start.HeldUntil key history limit
  recorded : ∀ number, c.pad.released = some number →
    ∃ key : Key, key.val = number ∧ start.LastReleased key history
  unrecorded : c.pad.released = none → ∀ key, ¬ Once (start.Releases key) history

structure Fresh (c : Console) : Prop where
  held : c.keyboard.held = []
  pad : c.pad = {}

/-- The keys that a poll releases at a time. Each is recorded in its turn, and only then is pressed
what the poll reads. -/
structure PollReleases (start : Console) (history : List Action) (c : Console) (now : Number)
    (released : List Key) : Prop where
  due : ∀ key, key ∈ released ↔ start.Releases key history (.poll now)
  distinct : released.Nodup
  recorded : ∀ first key rest, released = first ++ key :: rest →
    ((first ++ [key]).foldl HexPad.release c.pad).released = some key.val
  pad : (c.poll now).pad = (keys c.reads).foldl HexPad.press (released.foldl HexPad.release c.pad)

/-- What is typed presses keys, whether they are down or not, and releases none. -/
structure TypePresses (c : Console) (now : Number) (bytes : List UInt8) : Prop where
  down : ∀ key, (c.type now bytes).pad.isDown key ↔ key ∈ keys bytes ∨ c.pad.isDown key
  released : (c.type now bytes).pad.released = c.pad.released

namespace Tracks

theorem mem_ending (tracks : start.Tracks history c) {ends : Key × Value → Bool} {action : Action}
    (passes : ∀ key limit, ends (key, .number limit) ↔ Passes limit action) {key : Key} :
    key ∈ Keyboard.ending c.keyboard.held ends ↔ start.Releases key history action := by
  rw [Keyboard.mem_ending]
  constructor
  · rintro ⟨time, held, past⟩
    obtain ⟨limit, rfl, lasting⟩ := (tracks.entries key time).mp held
    exact ⟨limit, lasting, (passes key limit).mp past⟩
  · rintro ⟨limit, lasting, passed⟩
    exact ⟨_, (tracks.entries key _).mpr ⟨limit, rfl, lasting⟩, (passes key limit).mpr passed⟩

theorem released_ending (tracks : start.Tracks history c) (ends : Key × Value → Bool)
    {keys : List Key} (first : keys <+: Keyboard.ending c.keyboard.held ends) :
    (keys.foldl HexPad.release c.pad).released =
      (keys.getLast?.map Fin.val).or c.pad.released := by
  refine HexPad.released_foldl_release (fun key mem => (tracks.down key).mpr ?_)
    ((tracks.single.filter ends).sublist first.sublist)
  obtain ⟨time, held, _⟩ := Keyboard.mem_ending.mp (first.subset mem)
  exact ⟨time, held⟩

theorem next (tracks : start.Tracks history c) {action : Action} {ends : Key × Value → Bool}
    {struck : List Key} {time : Number} (moves : c.Moves ends struck time after)
    (passes : ∀ key limit, ends (key, .number limit) ↔ Passes limit action)
    (strikes : ∀ key limit, start.Strikes key limit history action ↔ key ∈ struck ∧ limit = time) :
    start.Tracks (history ++ [action]) after := by
  have stay : ∀ key t, (key, t) ∈ after.keyboard.held ↔ (key ∈ struck ∧ t = .number time) ∨
      (key ∉ struck ∧ (key, t) ∈ c.keyboard.held ∧ ¬ ends (key, t)) := by
    intro key t
    rw [moves.held, Keyboard.mem_foldl_renew, List.mem_filter, Bool.not_eq_true', Bool.not_eq_true]
  have lasting : ∀ key limit, start.HeldUntil key (history ++ [action]) limit ↔
      (key ∈ struck ∧ limit = time) ∨
        (key ∉ struck ∧ start.HeldUntil key history limit ∧ ¬ Passes limit action) := by
    intro key limit
    have renewed : (∀ later, ¬ start.Strikes key later history action) ↔ key ∉ struck := by
      simp [strikes]
    rw [HeldUntil, since_concat, strikes, renewed, and_left_comm]
    rfl
  have records : after.pad.released =
      ((Keyboard.ending c.keyboard.held ends).getLast?.map Fin.val).or c.pad.released := by
    rw [moves.pad, HexPad.released_foldl_press,
      tracks.released_ending ends (List.prefix_refl _)]
  constructor
  case hold => exact moves.hold.trans tracks.hold
  case single =>
    rw [moves.held]
    exact (tracks.single.filter _).foldl_renew struck
  case down =>
    intro key
    rw [moves.pad, HexPad.isDown_foldl_press, HexPad.isDown_foldl_release, tracks.down]
    constructor
    · rintro (hit | ⟨kept, t, held⟩)
      · exact ⟨_, (stay key _).mpr (.inl ⟨hit, rfl⟩)⟩
      · by_cases hit : key ∈ struck
        · exact ⟨_, (stay key _).mpr (.inl ⟨hit, rfl⟩)⟩
        · rw [tracks.single.mem_ending held] at kept
          exact ⟨t, (stay key t).mpr (.inr ⟨hit, held, kept⟩)⟩
    · rintro ⟨t, mem⟩
      rcases (stay key t).mp mem with ⟨hit, _⟩ | ⟨_, held, kept⟩
      · exact .inl hit
      · rw [← tracks.single.mem_ending held] at kept
        exact .inr ⟨kept, t, held⟩
  case entries =>
    intro key t
    simp only [stay, lasting, tracks.entries]
    constructor
    · rintro (⟨hit, rfl⟩ | ⟨miss, ⟨limit, rfl, held⟩, kept⟩)
      · exact ⟨time, rfl, .inl ⟨hit, rfl⟩⟩
      · exact ⟨limit, rfl, .inr ⟨miss, held, mt (passes key limit).mpr kept⟩⟩
    · rintro ⟨limit, rfl, ⟨hit, rfl⟩ | ⟨miss, held, kept⟩⟩
      · exact .inl ⟨hit, rfl⟩
      · exact .inr ⟨miss, ⟨limit, rfl, held⟩, mt (passes key limit).mp kept⟩
  case recorded =>
    intro number record
    rw [records] at record
    cases last : (Keyboard.ending c.keyboard.held ends).getLast? with
    | some key =>
      rw [last] at record
      cases record
      have released := (tracks.mem_ending passes).mp (List.mem_of_getLast? last)
      exact ⟨key, rfl, since_concat.mpr (.inl released)⟩
    | none =>
      rw [last] at record
      obtain ⟨key, rfl, since⟩ := tracks.recorded number record
      refine ⟨key, rfl, since_concat.mpr (.inr ⟨since, fun other released => ?_⟩)⟩
      have mem := (tracks.mem_ending passes).mpr released
      rw [List.getLast?_eq_none_iff.mp last] at mem
      exact List.not_mem_nil mem
  case unrecorded =>
    intro record key
    rw [records, Option.or_eq_none_iff, Option.map_eq_none_iff, List.getLast?_eq_none_iff] at record
    rw [once_concat, ← tracks.mem_ending passes, record.1]
    exact not_or.mpr ⟨List.not_mem_nil, tracks.unrecorded record.2 key⟩

theorem idle (tracks : start.Tracks history c) {action : Action}
    (quiet : ∀ c : Console, c.typing? action = none) (hold : after.keyboard.hold = c.keyboard.hold)
    (held : after.keyboard.held = c.keyboard.held) (pad : after.pad = c.pad) :
    start.Tracks (history ++ [action]) after := by
  refine tracks.next (.still hold held pad start.keyboard.hold) (fun key limit => ?_)
    (fun key limit => ?_)
  · refine iff_of_false Bool.false_ne_true ?_
    rintro ⟨now, rfl, _⟩
    cases quiet c
  · simp [Strikes, quiet]

theorem perform (tracks : start.Tracks history (start.performAll history)) (action : Action) :
    start.Tracks (history ++ [action]) ((start.performAll history).perform action) := by
  cases action with
  | start =>
    obtain ⟨hold, held⟩ := start_keeps_held (start.performAll history)
    exact tracks.idle (fun _ => rfl) hold held rfl
  | stop =>
    obtain ⟨hold, held⟩ := stop_keeps_held (start.performAll history)
    exact tracks.idle (fun _ => rfl) hold held rfl
  | send bytes => exact tracks.idle (fun _ => rfl) rfl rfl rfl
  | type now bytes =>
    refine tracks.next (type_moves _ now bytes) (fun key limit => ?_) (fun key limit => ?_)
    · simp [Passes]
    · simp [Strikes, typing?, tracks.hold]
  | poll now =>
    refine tracks.next (poll_moves _ now) (fun key limit => ?_) (fun key limit => ?_)
    · exact isDue_iff_passes
    · simp [Strikes, typing?, tracks.hold]

end Tracks

theorem Fresh.tracks (fresh : start.Fresh) (history : List Action) :
    start.Tracks history (start.performAll history) := by
  induction history using List.reverseRecOn with
  | nil =>
    constructor
    case hold => rfl
    case single =>
      change Single start.keyboard.held
      rw [fresh.held]
      exact List.nodup_nil
    case down =>
      intro key
      change start.pad.isDown key ↔ ∃ time, (key, time) ∈ start.keyboard.held
      rw [fresh.pad, fresh.held]
      simp [HexPad.isDown, HexPad.cell]
    case entries =>
      intro key time
      change (key, time) ∈ start.keyboard.held ↔ _
      rw [fresh.held]
      simp [HeldUntil, not_since_nil]
    case recorded =>
      intro number record
      change start.pad.released = some number at record
      rw [fresh.pad] at record
      cases record
    case unrecorded => exact fun _ _ => not_once_nil
  | append_singleton history action ih =>
    rw [performAll, List.foldl_concat]
    exact ih.perform action

theorem Tracks.poll_releases (tracks : start.Tracks history c) (now : Number) :
    start.PollReleases history c now
      (Keyboard.ending c.keyboard.held (isDue (.number now))) := by
  constructor
  case due =>
    intro key
    exact tracks.mem_ending fun _ _ => isDue_iff_passes
  case distinct => exact tracks.single.filter _
  case recorded =>
    intro first key rest order
    have early : first ++ [key] <+: Keyboard.ending c.keyboard.held (isDue (.number now)) :=
      ⟨rest, by rw [order, List.append_assoc, List.singleton_append]⟩
    rw [tracks.released_ending _ early, List.getLast?_concat]
    rfl
  case pad => exact (c.poll_moves now).pad

theorem type_presses (c : Console) (now : Number) (bytes : List UInt8) :
    c.TypePresses now bytes where
  down key := by rw [type_eq, HexPad.isDown_foldl_press]
  released := by rw [type_eq, HexPad.released_foldl_press]

/-- The keys that are down are those that are held, each until the time that its latest keystroke
set. A poll releases those whose time is up and records each, and nothing else releases a key. -/
theorem keystrokes_hold_until_due (fresh : start.Fresh) (history : List Action) :
    start.Tracks history (start.performAll history) ∧
      (∀ now, ∃ released, start.PollReleases history (start.performAll history) now released) ∧
      ∀ now bytes, (start.performAll history).TypePresses now bytes := by
  have tracks := fresh.tracks history
  exact ⟨tracks, fun now => ⟨_, tracks.poll_releases now⟩, type_presses _⟩

/-- A key that is struck a second time is held from then on. -/
theorem keystrokes_hold_until_due_twice :
    let start : Console := { keyboard := { hold := .whole 2 }, input := .queue [] }
    let history : List Action :=
      [.type (.whole 0) [0x71], .type (.whole 1) [0x51], .poll (.whole 2)]
    start.Fresh ∧ start.HeldUntil 4 history (.whole 3) ∧
      start.Releases 4 history (.poll (.whole 3)) := by
  intro start history
  have fresh : start.Fresh := ⟨rfl, rfl⟩
  have tracks := (keystrokes_hold_until_due fresh history).1
  have held : (start.performAll history).keyboard.held = [(4, .number (.whole 3))] := by
    refine (Moves.held (poll_moves _ (.whole 2))).trans ?_
    rw [perform, perform, type_eq, type_eq]
    rfl
  obtain ⟨limit, same, lasting⟩ := (tracks.entries 4 _).mp (held ▸ List.mem_singleton_self _)
  cases same
  exact ⟨fresh, lasting, .whole 3, lasting, .whole 3, rfl, Number.whole_le_whole.mpr (Int.le_refl 3)⟩

end Console

end ChipEight
