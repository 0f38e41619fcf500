/-
# The viewer's table of remote windows

`RemoteViewerState` of `sidechannel`: the proxies that stand for the windows of the peer, and the
control messages that announce, change and remove them.

`windows` is a `dict` from window id to proxy: a list of pairs in the order of insertion.  Of the
metadata of a window the fields are kept that the table reads.
-/
import Mathlib.Data.List.Nodup
import Mathlib.Data.Int.Order.Basic

namespace Sidechannel

open List

/-- `RemoteWindowMeta` -/
structure RemoteWindowMeta where
  windowId : ℤ
  streamId : String := ""
  title : String := ""
  reqW : ℤ := 0
  reqH : ℤ := 0
  deriving DecidableEq, Repr

/-- The messages about one window that is already announced. -/
inductive WindowMessage where
  | configure (w h : ℤ)
  | focus (focused : Bool)
  | titleChanged (title : String)
  | closeRequest
  | closed
  deriving DecidableEq, Repr

/-- The kinds of `ControlMessage`; the metadata of an `Announce` defaults to `None`. -/
inductive Body where
  | announce (data : Option RemoteWindowMeta)
  | perWindow (windowId : ℤ) (streamId : String) (change : WindowMessage)
  | shellRequest (windowId : ℤ) (streamId : String)
  | disconnect
  deriving DecidableEq, Repr

/-- `ControlMessage` -/
structure ControlMessage where
  type : String
  generation : ℤ
  body : Body
  deriving DecidableEq, Repr

/-- `ProxyWindow` -/
structure ProxyWindow where
  info : RemoteWindowMeta
  w : ℤ
  h : ℤ
  focused : Bool := false
  title : String := ""
  deriving DecidableEq, Repr

/-- `stream_id` -/
def ProxyWindow.streamId (p : ProxyWindow) : String := p.info.streamId

/-- `other.focused = False` -/
def ProxyWindow.blur (p : ProxyWindow) : ProxyWindow := { p with focused := false }

/-- `RemoteViewerState` -/
structure RemoteViewerState where
  generation : ℤ
  windows : List (ℤ × ProxyWindow) := []
  rejected : List (ℤ × String × String) := []
  connected : Bool := true
  deriving DecidableEq, Repr

namespace RemoteViewerState

variable (s : RemoteViewerState)

/-- `set_generation`, with `none` for the `ValueError`. -/
def setGeneration (generation : ℤ) : Option RemoteViewerState :=
  if generation ≤ s.generation then none
  else some { s with generation, windows := [], connected := true }

/-- `self.rejected.append(...); return False` -/
def reject (m : ControlMessage) (reason : String) : RemoteViewerState × Option Bool :=
  ({ s with rejected := s.rejected ++ [(m.generation, m.type, reason)] }, some false)

/-- The branch of an `Announce`; reading the stream id of a missing `meta` raises. -/
def applyAnnounce (m : ControlMessage) : Option RemoteWindowMeta →
    RemoteViewerState × Option Bool
  | none => (s, none)
  | some data =>
    if data.streamId = "" then s.reject m "empty-stream-id"
    else if s.windows.any (·.1 = data.windowId) then s.reject m "duplicate-window-id"
    else if s.windows.any (·.2.streamId = data.streamId) then s.reject m "duplicate-stream-id"
    else
      ({ s with windows := s.windows ++
          [(data.windowId,
            { info := data, w := data.reqW, h := data.reqH, title := data.title })] },
        some true)

/-- An assignment to fields of the proxy of a window. -/
def update (windowId : ℤ) (f : ProxyWindow → ProxyWindow) : RemoteViewerState :=
  { s with windows := s.windows.map fun e => if e.1 = windowId then (e.1, f e.2) else e }

/-- The branches of the per-window messages, once the proxy is found. -/
def applyChange (windowId : ℤ) : WindowMessage → RemoteViewerState
  | .configure w h => s.update windowId ({ · with w, h })
  | .focus focused =>
    -- one focused proxy at a time: every proxy loses the focus before this one gets it
    let s' := if focused then { s with windows := s.windows.map fun e => (e.1, e.2.blur) } else s
    s'.update windowId ({ · with focused })
  | .titleChanged title => s.update windowId ({ · with title })
  | .closeRequest => s
  | .closed => { s with windows := s.windows.filter (·.1 ≠ windowId) }

/-- `self.windows.get(window_id)` -/
def get (windowId : ℤ) : Option ProxyWindow :=
  (s.windows.find? (·.1 = windowId)).map Prod.snd

/-- The test of the stream id before the branches of the per-window messages. -/
def applyPerWindow (m : ControlMessage) (windowId : ℤ) (streamId : String)
    (change : WindowMessage) : RemoteViewerState × Option Bool :=
  match s.get windowId with
  | none => (s, some false)
  | some w =>
    if streamId ≠ w.streamId then s.reject m "stream-id-mismatch"
    else (s.applyChange windowId change, some true)

/-- `apply` after the tests of the link and of the generation. -/
def applyBody (m : ControlMessage) : Body → RemoteViewerState × Option Bool
  | .announce data => s.applyAnnounce m data
  | .perWindow windowId streamId change => s.applyPerWindow m windowId streamId change
  | .shellRequest _ _ => (s, some false)
  | .disconnect => ({ s with windows := [], connected := false }, some true)

/-- `apply`: what it returns, or `none` if it raises. -/
def apply (m : ControlMessage) : RemoteViewerState × Option Bool :=
  if !s.connected ∧ m.body ≠ .disconnect then s.reject m "disconnected"
  else if m.generation ≠ s.generation then s.reject m "stale-generation"
  else s.applyBody m m.body

end RemoteViewerState

/-- What the owner of the table does to it. -/
inductive Action where
  | message (m : ControlMessage)
  | setGeneration (generation : ℤ)
  deriving DecidableEq, Repr

/-- One action; a raising `set_generation` leaves the table as it was. -/
def step (s : RemoteViewerState) : Action → RemoteViewerState
  | .message m => (s.apply m).1
  | .setGeneration generation => (s.setGeneration generation).getD s

/-- A sequence of actions. -/
def run (s : RemoteViewerState) (actions : List Action) : RemoteViewerState :=
  actions.foldl step s

/-! ## The invariant of the table -/

/-- The proxies have distinct non-empty stream ids and stand under their own window id, and at
most one has the focus. -/
structure Sound (windows : List (ℤ × ProxyWindow)) : Prop where
  own : ∀ e ∈ windows, e.1 = e.2.info.windowId
  keys : (windows.map Prod.fst).Nodup
  named : ∀ e ∈ windows, e.2.streamId ≠ ""
  distinct : (windows.map (·.2.streamId)).Nodup
  oneFocus : (windows.filter (·.2.focused)).length ≤ 1

theorem Sound.nil : Sound [] :=
  ⟨by simp, by simp, by simp, by simp, by simp⟩

variable {windows : List (ℤ × ProxyWindow)}

theorem Sound.map (h : Sound windows) {f : ℤ × ProxyWindow → ℤ × ProxyWindow}
    (hf : ∀ e, (f e).1 = e.1 ∧ (f e).2.info = e.2.info)
    (hfocus : ((windows.map f).filter (·.2.focused)).length ≤ 1) : Sound (windows.map f) := by
  have hstream : ∀ e, (f e).2.streamId = e.2.streamId := fun e => congrArg (·.streamId) (hf e).2
  refine ⟨?_, ?_, ?_, ?_, hfocus⟩
  · intro _ hmem
    obtain ⟨e, he, rfl⟩ := mem_map.mp hmem
    rw [(hf e).1, (hf e).2]
    exact h.own e he
  · have hkeys : Prod.fst ∘ f = Prod.fst := funext fun e => (hf e).1
    rw [map_map, hkeys]
    exact h.keys
  · intro _ hmem
    obtain ⟨e, he, rfl⟩ := mem_map.mp hmem
    rw [hstream]
    exact h.named e he
  · have hstreams : (fun e : ℤ × ProxyWindow => e.2.streamId) ∘ f = fun e => e.2.streamId :=
      funext hstream
    rw [map_map, hstreams]
    exact h.distinct

theorem Sound.filter (h : Sound windows) (p : ℤ × ProxyWindow → Bool) :
    Sound (windows.filter p) := by
  have hsub : (windows.filter p).Sublist windows := filter_sublist
  refine ⟨fun e he => h.own e (hsub.subset he), h.keys.sublist (hsub.map _),
    fun e he => h.named e (hsub.subset he), h.distinct.sublist (hsub.map _), ?_⟩
  exact Nat.le_trans (hsub.filter _).length_le h.oneFocus

theorem length_filter_key_le (h : (windows.map Prod.fst).Nodup) (windowId : ℤ) :
    (windows.filter (·.1 = windowId)).length ≤ 1 := by
  have hcount : (windows.map Prod.fst).count windowId ≤ 1 := nodup_iff_count_le_one.mp h _
  rw [count_eq_countP, countP_map, countP_eq_length_filter] at hcount
  refine le_of_eq_of_le (congrArg length (filter_congr fun e _ => ?_)) hcount
  by_cases he : e.1 = windowId <;> simp [he]

variable {s : RemoteViewerState}

section

variable (h : Sound s.windows)
include h

theorem Sound.update (windowId : ℤ) {f : ProxyWindow → ProxyWindow}
    (hf : ∀ p, (f p).info = p.info) (hfocus : ∀ p, (f p).focused = p.focused) :
    Sound (s.update windowId f).windows := by
  refine Sound.map h (fun e => ?_) ?_
  · by_cases he : e.1 = windowId <;> simp [he, hf]
  · rw [filter_map, length_map]
    refine le_of_eq_of_le (congrArg length (filter_congr fun e _ => ?_)) h.oneFocus
    by_cases he : e.1 = windowId <;> simp [he, hfocus]

theorem Sound.focus (windowId : ℤ) (focused : Bool) :
    Sound (s.applyChange windowId (.focus focused)).windows := by
  cases focused with
  | true =>
    show Sound ((s.windows.map fun e => (e.1, e.2.blur)).map fun e =>
      if e.1 = windowId then (e.1, { e.2 with focused := true }) else e)
    rw [map_map]
    refine Sound.map h (fun e => ?_) ?_
    · by_cases he : e.1 = windowId <;> simp [he, ProxyWindow.blur]
    · rw [filter_map, length_map]
      refine le_of_eq_of_le (congrArg length (filter_congr fun e _ => ?_))
        (length_filter_key_le h.keys windowId)
      by_cases he : e.1 = windowId <;> simp [he, ProxyWindow.blur]
  | false =>
    refine Sound.map h (fun e => ?_) ?_
    · by_cases he : e.1 = windowId <;> simp [he]
    · rw [filter_map, length_map]
      refine Nat.le_trans (List.Sublist.length_le ?_) h.oneFocus
      refine monotone_filter_right s.windows fun e he => ?_
      by_cases hkey : e.1 = windowId
      · simp [hkey] at he
      · simpa [hkey] using he

theorem Sound.change (windowId : ℤ) (change : WindowMessage) :
    Sound (s.applyChange windowId change).windows := by
  cases change with
  | configure w h' => exact h.update windowId (fun _ => rfl) fun _ => rfl
  | focus focused => exact h.focus windowId focused
  | titleChanged title => exact h.update windowId (fun _ => rfl) fun _ => rfl
  | closeRequest => exact h
  | closed => exact h.filter _

theorem Sound.announce (m : ControlMessage) (data : Option RemoteWindowMeta)
    : Sound (s.applyAnnounce m data).1.windows := by
  rcases data with _ | data
  · exact h
  rw [RemoteViewerState.applyAnnounce]
  by_cases hempty : data.streamId = ""
  · rw [if_pos hempty]
    exact h
  rw [if_neg hempty]
  by_cases hkey : s.windows.any (·.1 = data.windowId)
  · rw [if_pos hkey]
    exact h
  rw [if_neg hkey]
  by_cases hstream : s.windows.any (·.2.streamId = data.streamId)
  · rw [if_pos hstream]
    exact h
  rw [if_neg hstream]
  simp only [any_eq_true, decide_eq_true_eq, not_exists, not_and] at hkey hstream
  refine ⟨?_, ?_, ?_, ?_, ?_⟩
  · intro e he
    rcases mem_append.mp he with he | he
    · exact h.own e he
    · rw [mem_singleton.mp he]
  · rw [map_append]
    refine nodup_append.mpr ⟨h.keys, nodup_singleton _, ?_⟩
    intro k hk k' hk' hne
    obtain ⟨e, he, rfl⟩ := mem_map.mp hk
    exact hkey e he (hne.trans (mem_singleton.mp hk'))
  · intro e he
    rcases mem_append.mp he with he | he
    · exact h.named e he
    · rw [mem_singleton.mp he]
      exact hempty
  · rw [map_append]
    refine nodup_append.mpr ⟨h.distinct, nodup_singleton _, ?_⟩
    intro k hk k' hk' hne
    obtain ⟨e, he, rfl⟩ := mem_map.mp hk
    exact hstream e he (hne.trans (mem_singleton.mp hk'))
  · rw [filter_append, length_append]
    exact h.oneFocus

end

theorem applyPerWindow_cases (m : ControlMessage) (windowId : ℤ) (streamId : String)
    (change : WindowMessage) :
    (s.applyPerWindow m windowId streamId change).1.windows = s.windows ∧
        (s.applyPerWindow m windowId streamId change).2 = some false ∨
      ∃ w, s.get windowId = some w ∧ streamId = w.streamId ∧
        s.applyPerWindow m windowId streamId change =
          (s.applyChange windowId change, some true) := by
  unfold RemoteViewerState.applyPerWindow
  cases hw : s.get windowId with
  | none => exact .inl ⟨rfl, rfl⟩
  | some w =>
    dsimp only
    by_cases hstream : streamId = w.streamId
    · exact .inr ⟨w, rfl, hstream, if_neg (not_not_intro hstream)⟩
    · rw [if_pos hstream]
      exact .inl ⟨rfl, rfl⟩

theorem Sound.perWindow (h : Sound s.windows) (m : ControlMessage) (windowId : ℤ)
    (streamId : String) (change : WindowMessage) :
    Sound (s.applyPerWindow m windowId streamId change).1.windows := by
  rcases applyPerWindow_cases (s := s) m windowId streamId change with
    ⟨hsame, -⟩ | ⟨w, -, -, heq⟩
  · rw [hsame]
    exact h
  · rw [heq]
    exact h.change windowId change

theorem apply_stale (m : ControlMessage) (hm : m.generation ≠ s.generation) :
    (s.apply m).1.windows = s.windows := by
  unfold RemoteViewerState.apply
  by_cases hconnected : !s.connected ∧ m.body ≠ .disconnect
  · rw [if_pos hconnected]
    rfl
  · rw [if_neg hconnected, if_pos hm]
    rfl

theorem apply_cases (m : ControlMessage) :
    (s.apply m).1.windows = s.windows ∧ (s.apply m).2 = some false ∨
      s.apply m = s.applyBody m m.body := by
  unfold RemoteViewerState.apply
  by_cases hconnected : !s.connected ∧ m.body ≠ .disconnect
  · rw [if_pos hconnected]
    exact .inl ⟨rfl, rfl⟩
  rw [if_neg hconnected]
  by_cases hm : m.generation ≠ s.generation
  · rw [if_pos hm]
    exact .inl ⟨rfl, rfl⟩
  · rw [if_neg hm]
    exact .inr rfl

theorem Sound.apply (h : Sound s.windows) (m : ControlMessage) : Sound (s.apply m).1.windows := by
  rcases apply_cases (s := s) m with ⟨hsame, -⟩ | heq
  · rw [hsame]
    exact h
  · rw [heq]
    cases m.body with
    | announce data => exact h.announce m data
    | perWindow windowId streamId change => exact h.perWindow m windowId streamId change
    | shellRequest windowId streamId => exact h
    | disconnect => exact Sound.nil

theorem Sound.step (h : Sound s.windows) (a : Action) : Sound (Sidechannel.step s a).windows := by
  cases a with
  | message m => exact h.apply m
  | setGeneration generation =>
    show Sound ((s.setGeneration generation).getD s).windows
    unfold RemoteViewerState.setGeneration
    by_cases hle : generation ≤ s.generation
    · rw [if_pos hle]
      exact h
    · rw [if_neg hle]
      exact Sound.nil

theorem sound_run (generation : ℤ) (actions : List Action) :
    Sound (run { generation } actions).windows :=
  foldlRecOn actions Sidechannel.step (motive := fun s => Sound s.windows) Sound.nil
    fun _ h a _ => h.step a

/-! ## What a per-window message leaves alone -/

/-- The proxies with another stream id. -/
def others (streamId : String) (windows : List (ℤ × ProxyWindow)) : List (ℤ × ProxyWindow) :=
  windows.filter (·.2.streamId ≠ streamId)

section

variable (h : Sound s.windows)
include h

theorem Sound.streamId_eq {w : ProxyWindow} {windowId : ℤ} (hw : s.get windowId = some w)
    {e : ℤ × ProxyWindow} (he : e ∈ s.windows) (hkey : e.1 = windowId)
    : e.2.streamId = w.streamId := by
  obtain ⟨e', hfind, rfl⟩ := Option.map_eq_some_iff.mp hw
  have hkey' := find?_some hfind
  have hmem : e' ∈ s.windows := mem_of_find?_eq_some hfind
  rw [inj_on_of_nodup_map h.keys he hmem (hkey.trans (of_decide_eq_true hkey').symm)]

/-- A change of the table reaches the proxies with another stream id only where it reaches the
entries under other window ids. -/
theorem Sound.others_map {w : ProxyWindow} {windowId : ℤ} (hw : s.get windowId = some w)
    {f g : ℤ × ProxyWindow → ℤ × ProxyWindow} (hf : ∀ e, (f e).2.info = e.2.info)
    (hg : ∀ e, e.1 ≠ windowId → f e = g e) :
    others w.streamId (s.windows.map f) = (others w.streamId s.windows).map g := by
  have hkeep : ∀ e ∈ s.windows, decide ((f e).2.streamId ≠ w.streamId) =
      decide (e.2.streamId ≠ w.streamId) := by
    intro e _
    show decide ((f e).2.info.streamId ≠ w.streamId) = _
    rw [hf e]
    rfl
  calc others w.streamId (s.windows.map f)
      = (others w.streamId s.windows).map f := by
        unfold others
        rw [List.filter_map]
        exact congrArg (List.map f) (List.filter_congr hkeep)
    _ = (others w.streamId s.windows).map g := by
        refine map_congr_left fun e he => hg e fun hkey => ?_
        obtain ⟨hmem, hne⟩ := mem_filter.mp he
        exact of_decide_eq_true hne (h.streamId_eq hw hmem hkey)

theorem Sound.others_change {w : ProxyWindow} {windowId : ℤ} (hw : s.get windowId = some w)
    (change : WindowMessage) :
    others w.streamId (s.applyChange windowId change).windows =
      if change = .focus true then
        (others w.streamId s.windows).map fun e => (e.1, e.2.blur)
      else others w.streamId s.windows := by
  have hupdate : ∀ f : ProxyWindow → ProxyWindow, (∀ p, (f p).info = p.info) →
      others w.streamId (s.update windowId f).windows = others w.streamId s.windows := by
    intro f hf
    have hmap := h.others_map hw
      (f := fun e => if e.1 = windowId then (e.1, f e.2) else e) (g := id)
      (fun e => by by_cases hkey : e.1 = windowId <;> simp [hkey, hf])
      (fun e hkey => if_neg hkey)
    rwa [map_id] at hmap
  cases change with
  | configure x y => exact hupdate _ fun _ => rfl
  | titleChanged title => exact hupdate _ fun _ => rfl
  | closeRequest => rfl
  | closed =>
    show (s.windows.filter _).filter _ = s.windows.filter _
    rw [filter_filter]
    refine filter_congr fun e he => ?_
    by_cases hkey : e.1 = windowId
    · simp [h.streamId_eq hw he hkey]
    · simp [hkey]
  | focus focused =>
    cases focused with
    | false => exact hupdate _ fun _ => rfl
    | true =>
      rw [if_pos rfl]
      show others w.streamId ((s.windows.map fun e => (e.1, e.2.blur)).map fun e =>
        if e.1 = windowId then (e.1, { e.2 with focused := true }) else e) = _
      rw [map_map]
      refine h.others_map hw (fun e => ?_) fun e hkey => if_neg hkey
      by_cases hkey : e.1 = windowId <;> simp [hkey, ProxyWindow.blur]

/-- A message about one window changes or removes only the proxy whose stream id it carries; one
that gives the focus to that proxy takes it from every other, and does nothing else to them. -/
def Confined (s : RemoteViewerState) (m : ControlMessage) : Body → Prop
  | .perWindow _ streamId change =>
    others streamId (s.apply m).1.windows =
      if change = .focus true ∧ (s.apply m).2 = some true then
        (others streamId s.windows).map fun e => (e.1, e.2.blur)
      else others streamId s.windows
  | .shellRequest _ _ => (s.apply m).1.windows = s.windows
  | .announce _ => True
  | .disconnect => True

theorem Sound.confined (m : ControlMessage) : Confined s m m.body := by
  have hcases := apply_cases (s := s) m
  generalize m.body = body at hcases ⊢
  cases body with
  | announce data => trivial
  | disconnect => trivial
  | shellRequest windowId streamId =>
    rcases hcases with ⟨hsame, -⟩ | heq
    · exact hsame
    · exact congrArg (·.1.windows) heq
  | perWindow windowId streamId change =>
    unfold Confined
    rcases hcases with ⟨hsame, hfalse⟩ | heq
    · simp [hsame, hfalse]
    rcases applyPerWindow_cases (s := s) m windowId streamId change with
      ⟨hsame, hfalse⟩ | ⟨w, hw, rfl, heq'⟩
    · simp [heq, RemoteViewerState.applyBody, hsame, hfalse]
    · simp only [heq, RemoteViewerState.applyBody, heq', and_true]
      exact h.others_change hw change

end

/-- **The table stays sound over every history of messages and generations**, a message of
another generation changes no proxy, and a per-window message is confined to its proxy. -/
theorem viewer_windows_sound (generation : ℤ) (actions : List Action) :
    Sound (run { generation } actions).windows ∧
      ∀ m : ControlMessage, (m.generation ≠ (run { generation } actions).generation →
          ((run { generation } actions).apply m).1.windows =
            (run { generation } actions).windows) ∧
        Confined (run { generation } actions) m m.body :=
  ⟨sound_run generation actions, fun m =>
    ⟨apply_stale m, (sound_run generation actions).confined m⟩⟩

/-- Two windows, the first of which has the focus. -/
def twoWindows : List Action :=
  [.message ⟨"announce", 1, .announce (some { windowId := 1, streamId := "a" })⟩,
    .message ⟨"announce", 1, .announce (some { windowId := 2, streamId := "b" })⟩,
    .message ⟨"focus", 1, .perWindow 1 "a" (.focus true)⟩]

/-- Focusing the second window changes the proxy of the first, whose stream id the message does
not carry. -/
theorem focus_changes_other :
    ((run { generation := 1 } twoWindows).get 1).map (·.streamId) = some "a" ∧
      ((run { generation := 1 } twoWindows).apply
        ⟨"focus", 1, .perWindow 2 "b" (.focus true)⟩).1.get 1 ≠
          (run { generation := 1 } twoWindows).get 1 := by
  decide

end Sidechannel
