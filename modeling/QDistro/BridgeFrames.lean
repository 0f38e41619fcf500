/-
# Frames on the native-messaging stream

`write_message` of the browser bridge writes the length of a message and then its text, by two calls
on a stream that the main loop, the heartbeat thread and the inbound thread share without a lock.
Each call is atomic; between the two anything may be written.

Where no frame is begun while another one is open, the stream is a sequence of complete frames
(`frames_complete`).
-/
import QDistro.JsonRecord
import QDistro.CanonicalJson
import QDistro.TransitionSystem

namespace BridgeFrames

open JsonText
open TransitionSystem

/-- A payload: the fields of a dictionary. -/
abbrev Message := List (String × Json)

/-- `json.dumps(payload).encode("utf-8")` -/
def bodyOf (m : Message) : List UInt8 := utf8Bytes (dumps defaultSeps (.obj m))

/-- `struct.pack("<I", n)` -/
def packLength (n : ℕ) : List UInt8 :=
  [UInt8.ofNat n, UInt8.ofNat (n / 256), UInt8.ofNat (n / 65536), UInt8.ofNat (n / 16777216)]

/-- A complete frame. -/
def frame (m : Message) : List UInt8 := packLength (bodyOf m).length ++ bodyOf m

inductive Writer
  | main
  | heartbeat
  | inbound
  deriving DecidableEq

structure Stream where
  out : List UInt8
  /-- The message whose length a thread has written and whose text it has not. -/
  opened : Writer → Option Message
  /-- The messages whose frame was begun, in order. -/
  passed : List Message

inductive Action
  /-- `write_message(m)` up to its first write. -/
  | start (w : Writer) (m : Message)
  /-- The second write. -/
  | finish (w : Writer)
  /-- The second write raises. -/
  | fail (w : Writer)

def step (s : Stream) : Action → Stream
  | .start w m =>
    -- a longer text makes `struct.pack` raise before anything is written
    if s.opened w = none ∧ (bodyOf m).length < 4294967296 then
      { out := s.out ++ packLength (bodyOf m).length
        opened := Function.update s.opened w (some m)
        passed := s.passed ++ [m] }
    else s
  | .finish w =>
    match s.opened w with
    | some m => { s with out := s.out ++ bodyOf m, opened := Function.update s.opened w none }
    | none => s
  | .fail w => { s with opened := Function.update s.opened w none }

def initial : Stream := ⟨[], fun _ => none, []⟩

/-- No frame is begun inside another, and no second write fails. -/
def ok (s : Stream) : Action → Prop
  | .start _ _ => ∀ w, s.opened w = none
  | .finish _ => True
  | .fail _ => False

/-- What the stream holds: complete frames, and the length of the one that is open. -/
inductive WellFramed (s : Stream) : Prop
  | closed (h : ∀ w, s.opened w = none) (hout : s.out = s.passed.flatMap frame)
  | inside {w : Writer} {m : Message} {front : List Message} (hw : s.opened w = some m)
      (hother : ∀ w', w' ≠ w → s.opened w' = none) (hpassed : s.passed = front ++ [m])
      (hout : s.out = front.flatMap frame ++ packLength (bodyOf m).length)

theorem WellFramed.start {s : Stream} (h : WellFramed s) {w : Writer} {m : Message}
    (hclosed : ∀ w, s.opened w = none) : WellFramed (step s (.start w m)) := by
  have hout : s.out = s.passed.flatMap frame := by
    cases h with
    | closed _ hout => exact hout
    | inside hw _ _ _ =>
      rw [hclosed] at hw
      cases hw
  rw [step]
  split_ifs with hcond
  · refine .inside (w := w) (m := m) (Function.update_self _ _ _) ?_ rfl ?_
    · intro w' hw'
      dsimp only
      rw [Function.update_of_ne hw', hclosed]
    · dsimp only
      rw [hout]
  · exact h

theorem WellFramed.finish {s : Stream} (h : WellFramed s) (w : Writer) :
    WellFramed (step s (.finish w)) := by
  cases h with
  | closed hclosed hout =>
    have hstep : step s (.finish w) = s := by rw [step, hclosed]
    rw [hstep]
    exact .closed hclosed hout
  | @inside w' m front hw hother hpassed hout =>
    by_cases heq : w = w'
    · subst heq
      rw [step, hw]
      refine .closed ?_ ?_
      · intro w'
        by_cases hw' : w' = w
        · subst hw'
          exact Function.update_self _ _ _
        · dsimp only
          rw [Function.update_of_ne hw', hother w' hw']
      · dsimp only
        rw [hout, hpassed, List.flatMap_append, List.flatMap_singleton, frame, List.append_assoc]
    · have hstep : step s (.finish w) = s := by rw [step, hother w heq]
      rw [hstep]
      exact .inside hw hother hpassed hout

/-- **Frames are complete.**  Where no frame is begun inside another and no write fails, the stream
holds complete frames of the messages passed to `write_message`, in order, and nothing else once
no call is under way. -/
theorem frames_complete {as : List Action} (h : Meets step ok initial as) :
    WellFramed (run step initial as) ∧ ((∀ w, (run step initial as).opened w = none) →
      (run step initial as).out = (run step initial as).passed.flatMap frame) := by
  have hinv : WellFramed (run step initial as) := by
    refine h.invariant (fun s a hok hs => ?_) (.closed (fun _ => rfl) rfl)
    cases a with
    | start w m => exact hs.start hok
    | finish w => exact hs.finish w
    | fail w => exact hok.elim
  refine ⟨hinv, fun hclosed => ?_⟩
  cases hinv with
  | closed _ hout => exact hout
  | inside hw _ _ _ =>
    rw [hclosed] at hw
    cases hw

/-- Two frames, one after the other. -/
theorem two_frames : Meets step ok initial
      [.start .main [], .finish .main, .start .heartbeat [], .finish .heartbeat] ∧
    (run step initial [.start .main [], .finish .main, .start .heartbeat [],
      .finish .heartbeat]).out = frame [] ++ frame [] := by
  have hmeets : Meets step ok initial
      [.start .main [], .finish .main, .start .heartbeat [], .finish .heartbeat] := by
    refine ⟨fun _ => rfl, trivial, fun w => ?_, trivial, trivial⟩
    cases w <;> rfl
  refine ⟨hmeets, ?_⟩
  rw [(frames_complete hmeets).2 (fun w => by cases w <;> rfl)]
  rfl

/-! ## A frame inside another -/

theorem bodyOf_eq (m : Message) : ∃ rest, bodyOf m = 123 :: rest := by
  have hopen : String.utf8EncodeChar '\x7b' = [123] := by decide
  have hdumps : ∃ rest, dumps defaultSeps (.obj m) = '\x7b' :: rest := by
    cases m with
    | nil => exact ⟨_, rfl⟩
    | cons kv fs => exact ⟨_, rfl⟩
  obtain ⟨rest, hrest⟩ := hdumps
  refine ⟨utf8Bytes rest, ?_⟩
  rw [bodyOf, hrest, utf8Bytes, List.flatMap_cons, hopen]
  rfl

/-- **The heartbeat begins its frame inside the one of the main loop**: the stream is not a sequence
of frames. -/
theorem frame_inside_frame : ∃ as : List Action, (∀ w, (run step initial as).opened w = none) ∧
      ¬ ∃ ms : List Message, (run step initial as).out = ms.flatMap frame := by
  refine ⟨[.start .main [], .start .heartbeat [], .finish .main, .finish .heartbeat], ?_, ?_⟩
  · intro w
    cases w <;> rfl
  · rintro ⟨ms, hms⟩
    have hout : (run step initial [.start .main [], .start .heartbeat [], .finish .main,
        .finish .heartbeat]).out = [2, 0, 0, 0, 2, 0, 0, 0, 123, 125, 123, 125] := by decide
    rw [hout] at hms
    cases ms with
    | nil => cases hms
    | cons m ms =>
      -- the fifth byte of a frame opens its text
      obtain ⟨rest, hrest⟩ := bodyOf_eq m
      have hfifth := congrArg (fun l => l[4]?) hms
      rw [List.flatMap_cons, frame, hrest] at hfifth
      simp [packLength] at hfifth

end BridgeFrames
