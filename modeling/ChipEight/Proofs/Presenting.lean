import ChipEight.Proofs.Drawing
import ChipEight.Proofs.History

/-!
A render asks for the picture to be drawn and presents what was drawn before. So a window presents
the picture as it was at the last poll that found a drawing asked for.
-/

namespace ChipEight

namespace WindowFront

variable {s t start : Session WindowFront}

/-- What may happen to a window: its front end is called, an event is queued, or anything is done to
the machine. -/
inductive Move where
  | call (c : Call)
  | post (event : WindowEvent)
  | change (machine : Machine) (pace : Pace)

def move (s : Session WindowFront) : Move → Session WindowFront
  | .call c => react c s
  | .post event => { s with outside.window := s.outside.window.enqueue event }
  | .change machine pace => { s with machine, pace }

def moveAll (s : Session WindowFront) (moves : List Move) : Session WindowFront :=
  moves.foldl move s

def Move.Requests (m : Move) : Prop :=
  m = .call .render ∨ m = .post .draw

def Requested (moves : List Move) : Prop :=
  Since (fun _ m => m.Requests) (fun _ m => m ≠ .call .poll) moves

/-- The last poll that found a drawing asked for found a picture with these pixels. -/
def Drawn (start : Session WindowFront) (cells : Vector UInt8 (screenWidth * screenHeight))
    (moves : List Move) : Prop :=
  Since
    (fun before m => m = .call .poll ∧ Requested before ∧
      (moveAll start before).machine.screen.cells = cells)
    (fun before m => ¬ (m = .call .poll ∧ Requested before)) moves

variable {moves : List Move} {m : Move}

theorem moveAll_concat : moveAll start (moves ++ [m]) = move (moveAll start moves) m := by
  rw [moveAll, List.foldl_append]
  rfl

theorem requested_concat :
    Requested (moves ++ [m]) ↔ m.Requests ∨ Requested moves ∧ m ≠ .call .poll :=
  since_concat

theorem drawn_concat {cells : Vector UInt8 (screenWidth * screenHeight)} :
    Drawn start cells (moves ++ [m]) ↔
      (m = .call .poll ∧ Requested moves ∧ (moveAll start moves).machine.screen.cells = cells) ∨
        Drawn start cells moves ∧ ¬ (m = .call .poll ∧ Requested moves) :=
  since_concat

structure Kept (m : Move) (s t : Session WindowFront) : Prop where
  window : s.outside.window.Repainted t.outside.window
  happenings : t.outside.happenings = s.outside.happenings
  lastDrawn : lastDrawn t = lastDrawn s
  queue : .draw ∈ t.outside.window.queue ↔ m.Requests ∨ .draw ∈ s.outside.window.queue

theorem Quiet.kept (quiet : Quiet s t) (silent : ¬ m.Requests) : Kept m s t where
  window := .of_eq quiet.window
  happenings := quiet.happenings
  lastDrawn := quiet.lastDrawn
  queue := by rw [quiet.window, or_iff_right silent]

theorem move_kept (other : m ≠ .call .poll) (s : Session WindowFront) : Kept m s (move s m) := by
  cases m with
  | post event =>
    refine ⟨.enqueue _ event, rfl, rfl, ?_⟩
    simp [move, Window.enqueue, Move.Requests, eq_comm, or_comm]
  | change machine pace =>
    refine ⟨.refl _, rfl, rfl, (or_iff_right ?_).symm⟩
    simp [Move.Requests]
  | call c =>
    cases c with
    | poll => exact absurd rfl other
    | render =>
      refine ⟨.enqueue _ .draw, rfl, ?_, ?_⟩
      · exact lastDrawn_call [.switchTo, .flip] rfl
      · simp [move, react, Window.render, Window.enqueue, call, Move.Requests]
    | clear =>
      refine Quiet.kept (.of_calls [.clear] ?_ rfl rfl rfl rfl) ?_
      · simp [DeviceCall.isPlain]
      · simp [Move.Requests]
    | beep =>
      refine Quiet.kept (.of_calls _ s.outside.buzzer.beep_plain rfl rfl rfl rfl) ?_
      simp [Move.Requests]
    | sleep seconds =>
      refine Quiet.kept ?_ (by simp [Move.Requests])
      simp only [move, react, Timeline.wake]
      split <;> exact ⟨rfl, rfl, rfl, rfl⟩

structure Fresh (s : Session WindowFront) : Prop where
  visible : 0 < s.outside.window.scale
  untouched : s.outside.window.Untouched
  idle : s.outside.window.queue = []
  blank : lastDrawn s = none
  undrawn : ∀ poll, .window .draw ∉ s.outside.happenings poll

structure Course (start : Session WindowFront) (moves : List Move) (s : Session WindowFront) :
    Prop where
  now : moveAll start moves = s
  visible : 0 < s.outside.window.scale
  ready : s.outside.window.Ready
  undrawn : ∀ poll, .window .draw ∉ s.outside.happenings poll
  queue : .draw ∈ s.outside.window.queue ↔ Requested moves
  lastDrawn : ∀ f : Framebuffer screenWidth screenHeight,
    lastDrawn s = some (Image.enlarged s.outside.window.scale f) ↔ Drawn start f.cells moves

theorem Fresh.course (fresh : Fresh start) : Course start [] start where
  now := rfl
  visible := fresh.visible
  ready := fresh.untouched.ready
  undrawn := fresh.undrawn
  queue := by
    rw [fresh.idle]
    exact iff_of_false nofun not_since_nil
  lastDrawn f := by
    rw [fresh.blank]
    exact iff_of_false nofun not_since_nil

namespace Course

theorem other (course : Course start moves s) (other : m ≠ .call .poll) :
    Course start (moves ++ [m]) (move s m) := by
  have kept := move_kept other s
  have drawing : ¬ (m = .call .poll ∧ Requested moves) := fun both => other both.1
  refine ⟨?_, ?_, kept.window.ready course.ready, ?_, ?_, fun f => ?_⟩
  · rw [moveAll_concat, course.now]
  · rw [kept.window.scale]
    exact course.visible
  · rw [kept.happenings]
    exact course.undrawn
  · rw [kept.queue, requested_concat, course.queue, and_iff_left other]
  · rw [kept.lastDrawn, kept.window.scale, course.lastDrawn, drawn_concat, and_iff_left drawing,
      or_iff_right fun now => drawing ⟨now.1, now.2.1⟩]

theorem poll (course : Course start moves s) :
    Course start (moves ++ [.call .poll]) (move s (.call .poll)) := by
  have polled : Polled s (move s (.call .poll)) := poll_polled course.ready course.undrawn
  refine ⟨?_, ?_, polled.window.ready course.ready, ?_, ?_, fun f => ?_⟩
  · rw [moveAll_concat, course.now]
  · rw [polled.window.scale]
    exact course.visible
  · rw [polled.happenings]
    exact course.undrawn
  · rw [polled.queue, requested_concat]
    simp [Move.Requests]
  -- what is drawn now is drawn last, so any other picture would have to be the same image
  · rw [polled.lastDrawn, polled.window.scale, drawn_concat, course.now]
    split
    · rename_i asked
      have requested := course.queue.mp asked
      rw [Option.some_inj, Image.enlarged_inj course.visible]
      simp [requested]
    · rename_i quiet
      have unasked := mt course.queue.mpr quiet
      rw [course.lastDrawn]
      simp [unasked]

theorem step (course : Course start moves s) (m : Move) :
    Course start (moves ++ [m]) (move s m) := by
  by_cases polls : m = .call .poll
  · subst polls
    exact course.poll
  · exact course.other polls

end Course

theorem Fresh.course_all (fresh : Fresh start) (moves : List Move) :
    Course start moves (moveAll start moves) :=
  foldl_induction (motive := Course start) fresh.course (fun _ _ m course => course.step m) moves

/-- A render flips at its end, and what it presents is the current picture exactly if the last poll
that found a drawing asked for found the same pixels. So it is neither before the first such poll
nor after a change since then. Quite generally it presents the picture that this poll found. -/
theorem render_presents_iff (fresh : Fresh start) (moves : List Move) :
    let s := moveAll start (moves ++ [.call .render])
    s.outside.calls.toList.getLast? = some .flip ∧
      (IsCurrent s ↔ Drawn start s.machine.screen.cells moves) ∧
      ∀ f : Framebuffer screenWidth screenHeight,
        lastDrawn s = some (Image.enlarged s.outside.window.scale f) ↔
          Drawn start f.cells moves := by
  intro s
  have noPoll : ¬ (Move.call .render = .call .poll ∧ Requested moves) := fun both => nomatch both.1
  have presents (f : Framebuffer screenWidth screenHeight) :
      lastDrawn s = some (Image.enlarged s.outside.window.scale f) ↔ Drawn start f.cells moves := by
    refine ((fresh.course_all (moves ++ [.call .render])).lastDrawn f).trans ?_
    rw [drawn_concat, and_iff_left noPoll, or_iff_right fun now => noPoll ⟨now.1, now.2.1⟩]
  refine ⟨?_, presents s.machine.screen, presents⟩
  simp only [s, moveAll_concat, move, react, Window.render, call, Array.toList_appendList]
  rw [List.getLast?_append]
  rfl

/-- The first render presents nothing, the render behind the first poll presents the picture, and if
the picture changes in between it presents the old one. -/
theorem render_presents_only_after_poll :
    let start : Session WindowFront := { machine := .new, settings := {}, outside := {} }
    let polled : List Move := [.call .render, .call .poll]
    let lit : Move := .change { screen := { cells := Vector.replicate _ 1 } } {}
    Fresh start ∧ ¬ IsCurrent (moveAll start ([] ++ [.call .render])) ∧
      IsCurrent (moveAll start (polled ++ [.call .render])) ∧
      ¬ IsCurrent (moveAll start ((polled ++ [lit]) ++ [.call .render])) := by
  intro start polled lit
  have fresh : Fresh start := ⟨by decide, ⟨rfl, rfl⟩, rfl, rfl, nofun⟩
  have requested : Requested ([] ++ [.call .render]) := requested_concat.mpr (.inl (.inl rfl))
  refine ⟨fresh, ?_, ?_, ?_⟩
  · rw [(render_presents_iff fresh []).2.1]
    exact not_since_nil
  · rw [(render_presents_iff fresh polled).2.1]
    exact drawn_concat.mpr (.inl ⟨rfl, requested, rfl⟩)
  · intro current
    have drawn := (render_presents_iff fresh (polled ++ [lit])).2.1.mp current
    rcases drawn_concat.mp drawn with ⟨poll, _⟩ | ⟨earlier, _⟩
    · exact nomatch poll
    · have earlier : Drawn start _ ([.call .render] ++ [.call .poll]) := earlier
      rcases drawn_concat.mp earlier with ⟨_, _, cells⟩ | ⟨_, none⟩
      · have same : Vector.replicate (screenWidth * screenHeight) (0 : UInt8) =
            Vector.replicate (screenWidth * screenHeight) 1 := cells
        rcases Vector.replicate_inj.mp same with empty | equal
        · cases empty
        · cases equal
      · exact none ⟨rfl, requested⟩

end WindowFront

end ChipEight
