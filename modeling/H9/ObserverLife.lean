import H9.FrameSubject
import H9.Lib.Steps

/-!
# The life of an observer

A `FrameObserver` (h9d/frameobserver.cc) attaches itself in its constructor and detaches itself in
its destructor. It is the base of what observes the bus, so the members of that are constructed
after the one and destroyed before the other. The thread that receives frames runs meanwhile, and
calls `on_frame_recv` of whom it finds attached.
-/

namespace H9

/-- How far an observer is. -/
inductive ObserverPhase
  /-- Not there, or not there any more. -/
  | absent
  /-- Attached by its base, while the rest of it is being constructed. -/
  | constructing
  | constructed
  /-- Its destruction has begun, and its base has not detached it yet. -/
  | destroying
deriving DecidableEq, Repr

structure ObserverRun (O : Type) where
  bus : FrameSubject O
  /-- What an observer was constructed with. -/
  watcher : O → Watcher
  phase : O → ObserverPhase
  /-- The calls of `on_frame_recv` so far, with the phase that the observer was in. -/
  on_frame_recv : List (O × ObserverPhase)

inductive ObserverStep (O : Type)
  /-- `FrameObserver::FrameObserver`. -/
  | attach (observer : O) (watcher : Watcher)
  /-- The constructors of the rest are done. -/
  | construct (observer : O)
  /-- The first destructor starts. -/
  | destroy (observer : O)
  /-- `FrameObserver::~FrameObserver`. -/
  | detach (observer : O)
  /-- The receiving thread notifies of a frame, under the lock of the subject. -/
  | notify_frame_observer (frame : H9frame)
deriving DecidableEq

namespace ObserverRun

variable {O : Type} [DecidableEq O]

def start : ObserverRun O where
  bus := .new
  watcher := fun _ => .devMgr
  phase := fun _ => .absent
  on_frame_recv := []

def goto (s : ObserverRun O) (observer : O) (phase : ObserverPhase) : ObserverRun O :=
  { s with phase := Function.update s.phase observer phase }

/-- An observer whose base is done goes from one phase to the next. -/
def advance (s : ObserverRun O) (observer : O) (src dst : ObserverPhase) : Option (ObserverRun O) :=
  if s.phase observer = src then some (s.goto observer dst) else none

def step (s : ObserverRun O) : ObserverStep O → Option (ObserverRun O)
  | .attach observer watcher =>
    if s.phase observer = .absent then some
      { s.goto observer .constructing with
        bus := s.bus.attach_frame_observer observer watcher.comparator
        watcher := Function.update s.watcher observer watcher }
    else none
  | .construct observer => s.advance observer .constructing .constructed
  | .destroy observer => s.advance observer .constructed .destroying
  | .detach observer =>
    if s.phase observer = .destroying then some
      { s.goto observer .absent with bus := s.bus.detach_frame_observer observer }
    else none
  | .notify_frame_observer frame => some
    { s with
      on_frame_recv := s.on_frame_recv ++
        (s.bus.notify_frame_observer frame).map fun observer => (observer, s.phase observer) }

end ObserverRun

end H9
