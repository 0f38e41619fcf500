/-
# Requests to the extension

The inbound thread of the browser bridge takes a `RequestTabs` call, checks its op against the
allowlist, mints a request id, merges both with the caller's arguments into one frame and waits for
the reply that the main loop finds by the id.

Every reply that a call returns is one the extension sent under that call's id.  The frame carries
the op that was checked where the arguments do not bring an `op` or a `request_id` of their own
(`inbound_requests`).
-/
import QDistro.JsonText
import QDistro.TransitionSystem

namespace BridgeRequests

open JsonText List
open TransitionSystem

/-- A message: the fields of a dictionary. -/
abbrev Message := List (String × Json)

def inboundOpAllowlist : List String :=
  ["tabs.list", "tabs.open", "tabs.close", "containers.list", "containers.create",
    "containers.remove", "notifications.show", "mpris.control"]

def inboundExtractOps : List String := ["page.extract.request"]

/-- `_inbound_op_allowed(op)`; `env` is `QDISTRO_BRIDGE_INBOUND_ALLOW_EXTRACT`. -/
def inboundOpAllowed (env op : String) : Bool × String :=
  if op ∈ inboundOpAllowlist then (true, "op-allowed")
  else if op ∈ inboundExtractOps then
    if env = "1" then (true, "op-extract-enabled") else (false, "op-extract-disabled")
  else (false, "op-not-allowlisted")

/-- `_next_request_id()`, after the counter went up. -/
def nextRequestId (seq : ℕ) (hex : String) : String := "r" ++ seq.repr ++ "-" ++ hex

/-- `args`, or `none` where the text is refused; a value that is no object is dropped. -/
def argsOf (argsJson : String) : Option Message :=
  if argsJson = "" then some []
  else
    match loads argsJson.toList with
    | some (.obj fields) => some fields
    | some _ => some []
    | none => none

/-- `{"op": op, "request_id": req_id, **args}` -/
def payloadOf (op id : String) (args : Message) : Message :=
  args.foldl (fun d kv => PyDict.put d kv.1 kv.2) [("op", .str op), ("request_id", .str id)]

/-- A `_PendingRequest`; its event is set where it has a reply. -/
structure PendingRequest where
  op : String
  /-- The id it was registered under. -/
  id : String
  reply : Option Message

/-- Where the inbound thread stands. -/
inductive Inbound
  | idle
  | admitted (op : String) (args : Message)
  | minted (op id : String) (args : Message)
  | registered (op id : String) (args : Message) (slot : ℕ)
  | waiting (op id : String) (slot : ℕ)
  | woken (op id : String) (slot : ℕ) (ok : Bool)

inductive Answer
  | writeFailed (detail : String)
  | requestTimeout (op id : String)
  | emptyReply
  | reply (m : Message)

/-- The dictionary that is returned. -/
def Answer.body : Answer → Message
  | .writeFailed detail => [("ok", .bool false), ("error", .str "stdio_write_failed"),
      ("detail", .str (String.ofList (detail.toList.take 200)))]
  | .requestTimeout op id => [("ok", .bool false), ("error", .str "request_timeout"),
      ("op", .str op), ("request_id", .str id)]
  | .emptyReply => [("ok", .bool false), ("error", .str "empty_reply")]
  | .reply m => m

/-- A frame of the inbound thread, with the op that passed the check and the id minted for it. -/
structure Frame where
  op : String
  id : String
  payload : Message

structure Bridge where
  seq : ℕ
  /-- Every id handed out, to requests and to heartbeats. -/
  minted : List String
  pending : String → Option ℕ
  /-- The pending requests ever made, by slot. -/
  slots : List PendingRequest
  inbound : Inbound
  /-- The reply that the main loop has matched and not yet stored. -/
  delivering : Option (ℕ × Message)
  sent : List Frame
  received : List Message
  returned : List (String × Answer)

inductive Action
  /-- A `RequestTabs` call arrives. -/
  | request (authorised : Bool) (op argsJson : String)
  | mint (hex : String)
  | register
  /-- `write_message`; the frame may have left before it raises. -/
  | write (raised : Option String)
  /-- The wait ends, by the event or by the timeout. -/
  | wake
  | finish
  /-- `read_message`, and the lookup of `deliver_reply`. -/
  | receive (m : Message)
  | deliver
  | heartbeat (hex : String)

/-- The text under `request_id`. -/
def requestId (m : Message) : Option String :=
  match PyDict.lookup m "request_id" with
  | some (.str id) => if id = "" then none else some id
  | _ => none

def Bridge.mintId (s : Bridge) (hex : String) : Bridge :=
  { s with seq := s.seq + 1, minted := nextRequestId (s.seq + 1) hex :: s.minted }

/-- `_pending.pop(req_id, None)`, and the answer to the caller. -/
def Bridge.answer (s : Bridge) (id : String) (a : Answer) : Bridge :=
  { s with
    pending := Function.update s.pending id none
    inbound := .idle
    returned := (id, a) :: s.returned }

variable (env : String)

def step (s : Bridge) : Action → Bridge
  | .request authorised op argsJson =>
    match s.inbound, argsOf argsJson with
    | .idle, some args =>
      if authorised = true ∧ (inboundOpAllowed env op).1 = true then
        { s with inbound := .admitted op args }
      else s
    | _, _ => s
  | .mint hex =>
    match s.inbound with
    | .admitted op args =>
      { s.mintId hex with inbound := .minted op (nextRequestId (s.seq + 1) hex) args }
    | _ => s
  | .register =>
    match s.inbound with
    | .minted op id args =>
      { s with
        slots := s.slots ++ [⟨op, id, none⟩]
        pending := Function.update s.pending id (some s.slots.length)
        inbound := .registered op id args s.slots.length }
    | _ => s
  | .write raised =>
    match s.inbound with
    | .registered op id args slot =>
      let s' := { s with sent := ⟨op, id, payloadOf op id args⟩ :: s.sent }
      match raised with
      | some detail => s'.answer id (.writeFailed detail)
      | none => { s' with inbound := .waiting op id slot }
    | _ => s
  | .wake =>
    match s.inbound with
    | .waiting op id slot =>
      { s with inbound := .woken op id slot (s.slots[slot]?.any fun p => p.reply.isSome) }
    | _ => s
  | .finish =>
    match s.inbound with
    | .woken op id slot ok =>
      if ok then
        match s.slots[slot]?.bind PendingRequest.reply with
        | some m => s.answer id (if m = [] then .emptyReply else .reply m)
        | none => s.answer id .emptyReply
      else s.answer id (.requestTimeout op id)
    | _ => s
  | .receive m =>
    if s.delivering = none then
      { s with
        received := m :: s.received
        delivering := ((requestId m).bind s.pending).map fun slot => (slot, m) }
    else s
  | .deliver =>
    match s.delivering with
    | some (slot, m) =>
      { s with
        slots := s.slots.modify slot fun p => { p with reply := some m }
        delivering := none }
    | none => s
  | .heartbeat hex => s.mintId hex

def initial : Bridge := ⟨0, [], fun _ => none, [], .idle, none, [], [], []⟩

/-! ## Merged frames -/

/-- The arguments bring no id of their own and no other op. -/
def Clean (op : String) (args : Message) : Prop :=
  ∀ kv ∈ args, kv.1 ≠ "request_id" ∧ (kv.1 = "op" → kv.2 = .str op)

theorem lookup_merge {k : String} {v : Json} {args d : Message}
    (hargs : ∀ kv ∈ args, kv.1 = k → kv.2 = v) (hd : PyDict.lookup d k = some v) :
    PyDict.lookup (args.foldl (fun d kv => PyDict.put d kv.1 kv.2) d) k = some v := by
  induction args generalizing d with
  | nil => exact hd
  | cons kv args ih =>
    rw [foldl_cons]
    apply ih fun kv' hkv' => hargs kv' (mem_cons_of_mem _ hkv')
    by_cases hk : kv.1 = k
    · rw [hk, hargs kv mem_cons_self hk]
      exact PyDict.lookup_put_self _ _ _
    · rw [PyDict.lookup_put_of_ne _ _ hk]
      exact hd

/-- The frame carries the op and the id of its call. -/
def Frame.Faithful (f : Frame) : Prop :=
  PyDict.lookup f.payload "op" = some (.str f.op) ∧
    PyDict.lookup f.payload "request_id" = some (.str f.id)

theorem payloadOf_faithful {op id : String} {args : Message} (h : Clean op args) :
    Frame.Faithful ⟨op, id, payloadOf op id args⟩ := by
  constructor
  · exact lookup_merge (fun kv hkv => (h kv hkv).2) rfl
  · exact lookup_merge (fun kv hkv hk => absurd hk (h kv hkv).1) rfl

theorem nextRequestId_inj {m n : ℕ} {hex hex' : String}
    (h : nextRequestId m hex = nextRequestId n hex') : m = n := by
  have hsep : ∀ n : ℕ, '-' ∉ 'r' :: n.repr.toList := by
    intro n
    rw [mem_cons, not_or]
    exact ⟨by decide, PyText.not_mem_repr (by decide)⟩
  have htext : ∀ (n : ℕ) (hex : String),
      (nextRequestId n hex).toList = ('r' :: n.repr.toList) ++ '-' :: hex.toList := by
    intro n hex
    simp [nextRequestId]
  have hsplit := congrArg (fun t => PyText.split '-' 1 t.toList) h
  rw [htext, htext, PyText.split_append _ _ _ _ (hsep m), PyText.split_append _ _ _ _ (hsep n)]
    at hsplit
  have hrepr := (cons.inj (cons.inj hsplit).1).2
  have hm := PyText.pyInt_repr (u := .ascii) m
  rw [hrepr, PyText.pyInt_repr] at hm
  exact_mod_cast (Option.some.inj hm).symm

/-! ## What holds after every step -/

/-- The slot holds the request that was registered under the id. -/
def Owned (slots : List PendingRequest) (id : String) (slot : ℕ) : Prop :=
  ∃ p, slots[slot]? = some p ∧ p.id = id

/-- The op passed the check, and the arguments leave it alone. -/
def Admitted (op : String) (args : Message) : Prop :=
  (inboundOpAllowed env op).1 = true ∧ Clean op args

/-- What the inbound thread knows at each place. -/
def Thread (s : Bridge) : Inbound → Prop
  | .idle => True
  | .admitted op args => Admitted env op args
  | .minted op id args => Admitted env op args ∧ id ∈ s.minted ∧ id ∉ s.sent.map Frame.id
  | .registered op id args slot =>
    (Admitted env op args ∧ id ∈ s.minted ∧ id ∉ s.sent.map Frame.id) ∧ Owned s.slots id slot
  | .waiting _ id slot => Owned s.slots id slot
  | .woken _ id slot _ => Owned s.slots id slot

structure Inv (s : Bridge) : Prop where
  ids : ∀ id ∈ s.minted, ∃ n hex, n ≤ s.seq ∧ id = nextRequestId n hex
  fresh : s.minted.Nodup
  frames : ∀ f ∈ s.sent, (inboundOpAllowed env f.op).1 = true ∧ f.Faithful ∧ f.id ∈ s.minted
  once : (s.sent.map Frame.id).Nodup
  thread : Thread env s s.inbound
  table : ∀ id slot, s.pending id = some slot → Owned s.slots id slot
  matched : ∀ slot m, s.delivering = some (slot, m) →
    m ∈ s.received ∧ ∃ id, requestId m = some id ∧ Owned s.slots id slot
  replies : ∀ p ∈ s.slots, ∀ m, p.reply = some m → m ∈ s.received ∧ requestId m = some p.id
  answers : ∀ r ∈ s.returned, ∀ m, r.2 = .reply m → m ∈ s.received ∧ requestId m = some r.1

variable {env} {s : Bridge}

theorem Inv.mintId (h : Inv env s) (hex : String) :
    Inv env (s.mintId hex) ∧ nextRequestId (s.seq + 1) hex ∉ s.minted := by
  have hnew : nextRequestId (s.seq + 1) hex ∉ s.minted := by
    intro hmem
    obtain ⟨n, hex', hn, heq⟩ := h.ids _ hmem
    have := nextRequestId_inj heq
    omega
  refine ⟨{ h with ids := ?_, fresh := ?_, frames := ?_, thread := ?_ }, hnew⟩
  · intro id hid
    rcases mem_cons.mp hid with rfl | hid
    · exact ⟨_, _, le_refl _, rfl⟩
    · obtain ⟨n, hex', hn, heq⟩ := h.ids id hid
      exact ⟨n, hex', Nat.le_succ_of_le hn, heq⟩
  · exact nodup_cons.mpr ⟨hnew, h.fresh⟩
  · intro f hf
    obtain ⟨hop, hfaithful, hid⟩ := h.frames f hf
    exact ⟨hop, hfaithful, mem_cons_of_mem _ hid⟩
  · have hthread := h.thread
    change Thread env (s.mintId hex) s.inbound
    cases hi : s.inbound <;> rw [hi] at hthread
    case minted op id args => exact ⟨hthread.1, mem_cons_of_mem _ hthread.2.1, hthread.2.2⟩
    case registered op id args slot =>
      exact ⟨⟨hthread.1.1, mem_cons_of_mem _ hthread.1.2.1, hthread.1.2.2⟩, hthread.2⟩
    all_goals exact hthread

theorem Inv.mint (h : Inv env s) (hex : String) : Inv env (step env s (.mint hex)) := by
  rw [step]
  split
  next op args hi =>
    have hthread := h.thread
    rw [hi] at hthread
    obtain ⟨hinv, hnew⟩ := h.mintId hex
    refine { hinv with thread := ⟨hthread, mem_cons_self, ?_⟩ }
    intro hmem
    obtain ⟨f, hf, hid⟩ := mem_map.mp hmem
    exact hnew (hid ▸ (h.frames f hf).2.2)
  next => exact h

theorem Owned.append {slots : List PendingRequest} {id : String} {slot : ℕ}
    (h : Owned slots id slot) (p : PendingRequest) : Owned (slots ++ [p]) id slot := by
  obtain ⟨q, hq, hid⟩ := h
  refine ⟨q, ?_, hid⟩
  rw [List.getElem?_append_left (List.getElem?_eq_some_iff.mp hq).1]
  exact hq

section

variable (h : Inv env s)
include h

theorem Inv.register : Inv env (step env s .register) := by
  rw [step]
  split
  next op id args hi =>
    have hthread := h.thread
    rw [hi] at hthread
    have hown : Owned (s.slots ++ [⟨op, id, none⟩]) id s.slots.length :=
      ⟨⟨op, id, none⟩, by simp, rfl⟩
    refine { h with thread := ⟨hthread, hown⟩, table := ?_, matched := ?_, replies := ?_ }
    · intro id' slot hslot
      dsimp only at hslot
      by_cases hid : id' = id
      · subst hid
        rw [Function.update_self] at hslot
        cases hslot
        exact hown
      · rw [Function.update_of_ne hid] at hslot
        exact (h.table id' slot hslot).append _
    · intro slot m hm
      obtain ⟨hrec, id', hid', hslot⟩ := h.matched slot m hm
      exact ⟨hrec, id', hid', hslot.append _⟩
    · intro p hp m hm
      rcases mem_append.mp hp with hp | hp
      · exact h.replies p hp m hm
      · rw [mem_singleton.mp hp] at hm
        cases hm
  next => exact h

theorem Inv.answer {id : String} {a : Answer}
    (ha : ∀ m, a = .reply m → m ∈ s.received ∧ requestId m = some id) :
    Inv env (s.answer id a) := by
  refine { h with thread := trivial, table := ?_, answers := ?_ }
  · intro id' slot hslot
    rw [Bridge.answer] at hslot
    dsimp only at hslot
    by_cases hid : id' = id
    · rw [hid, Function.update_self] at hslot
      cases hslot
    · rw [Function.update_of_ne hid] at hslot
      exact h.table id' slot hslot
  · intro r hr m hm
    rcases mem_cons.mp hr with rfl | hr
    · exact ha m hm
    · exact h.answers r hr m hm

theorem Inv.write (raised : Option String) :
    Inv env (step env s (.write raised)) := by
  rw [step]
  split
  next op id args slot hi =>
    have hthread := h.thread
    rw [hi] at hthread
    obtain ⟨⟨⟨hop, hclean⟩, hid, hnew⟩, hown⟩ := hthread
    have hsent : Inv env
        { s with
          sent := ⟨op, id, payloadOf op id args⟩ :: s.sent
          inbound := .waiting op id slot } := by
      refine { h with thread := hown, frames := ?_, once := nodup_cons.mpr ⟨hnew, h.once⟩ }
      intro f hf
      rcases mem_cons.mp hf with rfl | hf
      · exact ⟨hop, payloadOf_faithful hclean, hid⟩
      · exact h.frames f hf
    cases raised with
    | none => exact hsent
    | some detail => exact hsent.answer (fun m hm => (by cases hm))
  next => exact h

theorem Inv.wake : Inv env (step env s .wake) := by
  rw [step]
  split
  next op id slot hi =>
    have hthread := h.thread
    rw [hi] at hthread
    exact { h with thread := hthread }
  next => exact h

theorem Inv.finish : Inv env (step env s .finish) := by
  rw [step]
  split
  next op id slot ok hi =>
    have hthread := h.thread
    rw [hi] at hthread
    obtain ⟨p, hp, hid⟩ := hthread
    split_ifs with hok
    · rw [hp, Option.bind_some]
      split
      next m hm =>
        apply h.answer
        intro m' hm'
        split_ifs at hm' with hempty
        cases hm'
        rw [← hid]
        exact h.replies p (mem_of_getElem? hp) m hm
      next => exact h.answer (fun m hm => (by cases hm))
    · exact h.answer (fun m hm => (by cases hm))
  next => exact h

theorem Inv.receive (m : Message) : Inv env (step env s (.receive m)) := by
  rw [step]
  split_ifs with hfree
  · refine { h with matched := ?_, replies := ?_, answers := ?_ }
    · intro slot m' hm'
      dsimp only at hm'
      obtain ⟨slot', hslot, heq⟩ := Option.map_eq_some_iff.mp hm'
      obtain ⟨id, hid, hpending⟩ := Option.bind_eq_some_iff.mp hslot
      cases heq
      exact ⟨mem_cons_self, id, hid, h.table id slot hpending⟩
    · intro p hp m' hm'
      obtain ⟨hmem, hid⟩ := h.replies p hp m' hm'
      exact ⟨mem_cons_of_mem _ hmem, hid⟩
    · intro r hr m' hm'
      obtain ⟨hmem, hid⟩ := h.answers r hr m' hm'
      exact ⟨mem_cons_of_mem _ hmem, hid⟩
  · exact h

end

theorem Owned.deliver {slots : List PendingRequest} {id : String} {slot : ℕ}
    (h : Owned slots id slot) (slot' : ℕ) (m : Message) :
    Owned (slots.modify slot' fun p => { p with reply := some m }) id slot := by
  obtain ⟨p, hp, hid⟩ := h
  rw [Owned, getElem?_modify, hp]
  by_cases heq : slot' = slot
  · exact ⟨{ p with reply := some m }, by simp [heq], hid⟩
  · exact ⟨p, by simp [heq], hid⟩

theorem Inv.deliver (h : Inv env s) : Inv env (step env s .deliver) := by
  rw [step]
  split
  next slot m hm =>
    obtain ⟨hrec, id, hreq, p, hp, hid⟩ := h.matched slot m hm
    refine { h with thread := ?_, table := ?_, matched := ?_, replies := ?_ }
    · have hthread := h.thread
      dsimp only
      cases hi : s.inbound <;> rw [hi] at hthread
      case registered op id args slot' => exact ⟨hthread.1, hthread.2.deliver slot m⟩
      case waiting op id slot' => exact Owned.deliver hthread slot m
      case woken op id slot' ok => exact Owned.deliver hthread slot m
      all_goals exact hthread
    · intro id' slot' hslot
      exact (h.table id' slot' hslot).deliver slot m
    · intro slot' m' hm'
      cases hm'
    · intro q hq m' hm'
      obtain ⟨i, hi⟩ := getElem?_of_mem hq
      dsimp only at hi
      rw [getElem?_modify] at hi
      obtain ⟨q', hq', heq⟩ := Option.map_eq_some_iff.mp hi
      split_ifs at heq with hslot
      · -- the request that was matched
        subst hslot
        rw [hp] at hq'
        cases hq'
        subst heq
        cases hm'
        exact ⟨hrec, by rw [hreq, hid]⟩
      · subst heq
        exact h.replies q' (mem_of_getElem? hq') m' hm'
  next => exact h

/-- No request brings an op or an id of its own in its arguments. -/
def ok (_ : Bridge) : Action → Prop
  | .request _ op argsJson => ∀ args, argsOf argsJson = some args → Clean op args
  | _ => True

theorem Inv.step (h : Inv env s) (a : Action) (hok : ok s a) :
    Inv env (BridgeRequests.step env s a) := by
  cases a with
  | request authorised op argsJson =>
    rw [BridgeRequests.step]
    split
    next args hidle hargs =>
      split_ifs with hcond
      · exact { h with thread := ⟨hcond.2, hok args hargs⟩ }
      · exact h
    next => exact h
  | mint hex => exact h.mint hex
  | register => exact h.register
  | write raised => exact h.write raised
  | wake => exact h.wake
  | finish => exact h.finish
  | receive m => exact h.receive m
  | deliver => exact h.deliver
  | heartbeat hex => exact (h.mintId hex).1

theorem initial_inv : Inv env initial where
  ids := by simp [initial]
  fresh := nodup_nil
  frames := by simp [initial]
  once := nodup_nil
  thread := trivial
  table := by simp [initial]
  matched := by simp [initial]
  replies := by simp [initial]
  answers := by simp [initial]

variable (env)

/-- **The allowlist decides what the extension is asked.**  Where the arguments of no request bring
an op or an id of their own, every frame carries the op that passed the check and an id minted for
it alone, and a reply that is returned to a caller was received under the id of its call. -/
theorem inbound_requests {as : List Action} (h : Meets (step env) ok initial as) :
    let s := run (step env) initial as
    (∀ f ∈ s.sent, (inboundOpAllowed env f.op).1 = true ∧
      PyDict.lookup f.payload "op" = some (.str f.op) ∧
      PyDict.lookup f.payload "request_id" = some (.str f.id) ∧ f.id ∈ s.minted) ∧
    s.minted.Nodup ∧ (s.sent.map Frame.id).Nodup ∧
    ∀ r ∈ s.returned, ∀ m, r.2 = .reply m → m ∈ s.received ∧ requestId m = some r.1 := by
  have hinv : Inv env (run (step env) initial as) :=
    h.invariant (fun s a hok hs => hs.step a hok) initial_inv
  refine ⟨?_, hinv.fresh, hinv.once, hinv.answers⟩
  intro f hf
  obtain ⟨hop, hfaithful, hid⟩ := hinv.frames f hf
  exact ⟨hop, hfaithful.1, hfaithful.2, hid⟩

/-- A whole call: the reply comes back under the id of the frame. -/
def tabsList : List Action :=
  [.request true "tabs.list" "", .mint "00ff00ff", .register, .write none,
    .receive [("request_id", .str "r1-00ff00ff")], .deliver, .wake, .finish]

theorem tabsList_returned : Meets (step "") ok initial tabsList ∧
    (run (step "") initial tabsList).returned.map Prod.fst = ["r1-00ff00ff"] ∧
    ∀ f ∈ (run (step "") initial tabsList).sent,
      PyDict.lookup f.payload "op" = some (.str f.op) := by
  have hmeets : Meets (step "") ok initial tabsList := by
    refine ⟨fun args hargs => ?_, trivial, trivial, trivial, trivial, trivial, trivial, trivial,
      trivial⟩
    cases hargs
    exact fun kv hkv => absurd hkv (by simp)
  exact ⟨hmeets, by decide +kernel, fun f hf => ((inbound_requests "" hmeets).1 f hf).2.1⟩

/-- The op that a frame asks for. -/
def asks (m : Message) : Option String :=
  match PyDict.lookup m "op" with
  | some (.str op) => some op
  | _ => none

theorem lookup_of_asks {m : Message} {op : String} (h : asks m = some op) :
    PyDict.lookup m "op" = some (.str op) := by
  unfold asks at h
  split at h
  next op' hop =>
    cases h
    exact hop
  next => cases h

/-- **The arguments override the op**: the op that was checked is allowed, and the frame asks for an
extraction while extractions are disabled. -/
theorem op_overridden :
    ∃ f ∈ (run (step "") initial
        [.request true "tabs.list" "\x7b\"op\": \"page.extract.request\"\x7d", .mint "00ff00ff",
          .register, .write none]).sent,
      f.op = "tabs.list" ∧ PyDict.lookup f.payload "op" = some (.str "page.extract.request") ∧
        (inboundOpAllowed "" "page.extract.request").1 = false := by
  have hsent : (run (step "") initial
      [.request true "tabs.list" "\x7b\"op\": \"page.extract.request\"\x7d", .mint "00ff00ff",
        .register, .write none]).sent.map (fun f => (f.op, asks f.payload)) =
      [("tabs.list", some "page.extract.request")] := by decide +kernel
  have hmem := List.mem_map.mp (hsent ▸ List.mem_singleton_self _)
  obtain ⟨f, hf, heq⟩ := hmem
  have hop := Prod.mk.inj heq
  exact ⟨f, hf, hop.1, lookup_of_asks hop.2, by decide⟩

end BridgeRequests
