/-
# The registry of nested streams

`RemoteNestedRegistry` owns one supervisor process for each remote stream.  `add_many` takes a tuple of
specs with descriptors; it starts a child for each of them, or none, and is to close every descriptor
in this process either way.

A descriptor is a C `int`.  Whether the next process can be created is a function of its index in the
call, and a child that is stopped ends.  A call closes every open descriptor exactly once unless the
stream limit refuses it, or a missing `source_close_fd` ends the cleanup early
(`descriptors_closed_iff`).
-/
import QDistro.RemoteProtocol
import QDistro.TransitionSystem

namespace RemoteNested

namespace Registry

open TransitionSystem List

/-- A number that `os.close` takes. -/
def CInt : Type := { n : ℤ // -2 ^ 31 ≤ n ∧ n < 2 ^ 31 }

instance : DecidableEq CInt := inferInstanceAs (DecidableEq { n : ℤ // -2 ^ 31 ≤ n ∧ n < 2 ^ 31 })

abbrev Key := String × String

/-- `RemoteNestedStreamSpec` -/
structure StreamSpec where
  originMachineId : String
  streamId : String
  generation : ℤ
  host : String
  port : ℤ
  grantFd : CInt
  secretFd : CInt
  tlsCertFd : CInt
  tlsKeyFd : CInt
  peerCertFd : CInt
  sourceConfigFd : Option CInt := none
  sourceCloseFd : Option CInt := none

def StreamSpec.key (spec : StreamSpec) : Key := (spec.originMachineId, spec.streamId)

/-- `owned_fds`; a missing `source_close_fd` stands in it as `none`. -/
def StreamSpec.ownedFds (spec : StreamSpec) : List (Option CInt) :=
  [some spec.grantFd, some spec.secretFd, some spec.tlsCertFd, some spec.tlsKeyFd,
    some spec.peerCertFd] ++
    match spec.sourceConfigFd with
    | none => []
    | some fd => [some fd, spec.sourceCloseFd]

inductive Role where
  | source
  | viewer
  deriving DecidableEq

/-- `RemoteNestedRegistry`: the running streams with the numbers of their processes, and the newest
generation of each key. -/
structure State where
  role : Role
  running : PyDict Key (StreamSpec × ℕ)
  lastGeneration : PyDict Key ℤ

/-- What the process holds: its open descriptors, those it has closed, the number of children it has
started and those it has stopped. -/
structure Host where
  isOpen : CInt → Bool
  closed : List CInt := []
  created : ℕ := 0
  stopped : List ℕ := []

/-- What `add_many` raises. -/
inductive AddError where
  | valueError (msg : String)
  | typeError
  | createError
  deriving DecidableEq

/-! ## Validation -/

/-- `_validate_spec` -/
def validateSpec (role : Role) (spec : StreamSpec) : Except String Unit :=
  if !matchIdentity spec.originMachineId then .error "nested stream origin id is invalid"
  else if !matchIdentity spec.streamId then .error "nested stream id is invalid"
  else if spec.generation ≤ 0 then .error "nested stream generation is invalid"
  else if spec.host.toList = [] ∨ spec.host.toList.length > 255 ∨
      spec.host.toList.any (fun c => c.toNat < 33) then .error "nested stream host is invalid"
  else if spec.port < 1 ∨ 65535 < spec.port then .error "nested stream port is invalid"
  else if spec.ownedFds.any (fun fd => fd.all fun n => n.1 < 0) ∨ ¬ spec.ownedFds.Nodup then
    .error "nested stream fds must be valid and distinct"
  else
    match role with
    | .source =>
      if spec.sourceConfigFd = none ∨ spec.sourceCloseFd = none then
        .error "source nested stream requires local fds"
      else .ok ()
    | .viewer =>
      if spec.sourceConfigFd ≠ none ∨ spec.sourceCloseFd ≠ none then
        .error "viewer nested stream cannot receive source fds"
      else .ok ()

/-- The loop of `add_many` over the specs, with the keys and descriptors of those before. -/
def checkSpecs (r : State) : List Key → List (Option CInt) → List StreamSpec → Except String Unit
  | _, _, [] => .ok ()
  | keys, fds, spec :: rest =>
    match validateSpec r.role spec with
    | .error msg => .error msg
    | .ok () =>
      if (r.running.get? spec.key).isSome ∨ spec.key ∈ keys then
        .error "duplicate nested stream identity"
      else if (r.lastGeneration.get? spec.key).any fun previous => spec.generation ≤ previous then
        .error "nested stream remount generation must increase"
      else if spec.ownedFds.any (· ∈ fds) then .error "nested streams cannot share inherited fds"
      else checkSpecs r (spec.key :: keys) (fds ++ spec.ownedFds) rest

/-! ## Descriptors and children -/

/-- `os.close(fd)` with `OSError` passed over. -/
def Host.close (h : Host) (fd : CInt) : Host :=
  if h.isOpen fd then
    { h with isOpen := fun n => if n = fd then false else h.isOpen n, closed := h.closed ++ [fd] }
  else h

/-- `_close_fds`, and whether it returned: `os.close(None)` raises `TypeError`. -/
def Host.closeFds (h : Host) : List (Option CInt) → Host × Bool
  | [] => (h, true)
  | none :: _ => (h, false)
  | some fd :: rest => (h.close fd).closeFds rest

/-- `_close_fds` for one spec after the other. -/
def Host.closeSpecs (h : Host) : List StreamSpec → Host × Bool
  | [] => (h, true)
  | spec :: rest =>
    match h.closeFds spec.ownedFds with
    | (h', false) => (h', false)
    | (h', true) => h'.closeSpecs rest

/-- The loop that starts the children. -/
def spawn (creates : ℕ → Bool) (h : Host) (started : List (StreamSpec × ℕ)) :
    List StreamSpec → Host × List (StreamSpec × ℕ) × Option AddError
  | [] => (h, started, none)
  | spec :: rest =>
    if creates started.length then
      match ({ h with created := h.created + 1 } : Host).closeFds spec.ownedFds with
      | (h', false) => (h', started ++ [(spec, h.created)], some .typeError)
      | (h', true) => spawn creates h' (started ++ [(spec, h.created)]) rest
    else (h, started, some .createError)

/-- The streams that were started are running. -/
def State.commit (r : State) (started : List (StreamSpec × ℕ)) : State :=
  started.foldl (fun r s =>
    { r with
      running := r.running.insert s.1.key s
      lastGeneration := r.lastGeneration.insert s.1.key s.1.generation }) r

/-- `MAX_REMOTE_STREAMS` -/
def maxRemoteStreams : ℕ := 64

/-- `add_many` -/
def addMany (creates : ℕ → Bool) (r : State) (h : Host) (specs : List StreamSpec) :
    State × Host × Option AddError :=
  if specs = [] then (r, h, none)
  else if r.running.size + specs.length > maxRemoteStreams then
    (r, h, some (.valueError "nested stream limit exceeded"))
  else
    match checkSpecs r [] [] specs with
    | .error msg =>
      match h.closeSpecs specs with
      | (h', true) => (r, h', some (.valueError msg))
      | (h', false) => (r, h', some .typeError)
    | .ok () =>
      match spawn creates h [] specs with
      | (h', started, none) => (r.commit started, h', none)
      | (h', started, some e) =>
        match h'.closeSpecs (specs.filter fun spec => spec.key ∉ started.map fun s => s.1.key) with
        | (h'', false) => (r, h'', some .typeError)
        | (h'', true) =>
          (r, { h'' with stopped := h''.stopped ++ started.map Prod.snd }, some e)

/-! ## What is closed -/

/-- The descriptors of the specs, in order. -/
def owned (specs : List StreamSpec) : List (Option CInt) := specs.flatMap StreamSpec.ownedFds

theorem owned_cons (spec : StreamSpec) (rest : List StreamSpec) :
    owned (spec :: rest) = spec.ownedFds ++ owned rest := flatMap_cons

/-- Every open descriptor among these is closed exactly once. -/
def ClosedOnce (fds : List (Option CInt)) (h h' : Host) : Prop :=
  ∃ log, h'.closed = h.closed ++ log ∧
    ∀ fd, some fd ∈ fds → h.isOpen fd = true → h'.isOpen fd = false ∧ log.count fd = 1

theorem closeFds_spec (fds : List (Option CInt)) (h : Host) :
    ∃ log, (h.closeFds fds).1.closed = h.closed ++ log ∧
      (∀ fd, (h.closeFds fds).1.isOpen fd =
        (h.isOpen fd && !decide (some fd ∈ fds.takeWhile Option.isSome))) ∧
      (∀ fd, log.count fd =
        if h.isOpen fd = true ∧ some fd ∈ fds.takeWhile Option.isSome then 1 else 0) ∧
      (h.closeFds fds).1.created = h.created ∧ (h.closeFds fds).1.stopped = h.stopped ∧
      ((h.closeFds fds).2 = true ↔ none ∉ fds) := by
  induction fds generalizing h with
  | nil => exact ⟨[], by simp [Host.closeFds]⟩
  | cons fd rest ih =>
    cases fd with
    | none => exact ⟨[], by simp [Host.closeFds]⟩
    | some fd =>
      obtain ⟨log, hclosed, hopen, hcount, hcreated, hstopped, hok⟩ := ih (h.close fd)
      rw [Host.closeFds, takeWhile_cons_of_pos rfl]
      by_cases hfd : h.isOpen fd = true
      · have hclose : h.close fd = { h with
            isOpen := fun n => if n = fd then false else h.isOpen n
            closed := h.closed ++ [fd] } := if_pos hfd
        rw [hclose] at hclosed hopen hcount hcreated hstopped hok ⊢
        refine ⟨fd :: log, by rw [hclosed]; simp, fun n => ?_, fun n => ?_, hcreated, hstopped,
          by rw [hok]; simp⟩
        · rw [hopen]
          by_cases hn : n = fd
          · simp [hn]
          · simp [hn]
        · rw [count_cons, hcount]
          by_cases hn : n = fd
          · simp [hn, hfd]
          · simp [hn, Ne.symm hn]
      · have hclose : h.close fd = h := if_neg hfd
        rw [hclose] at hclosed hopen hcount hcreated hstopped hok ⊢
        refine ⟨log, hclosed, fun n => ?_, fun n => ?_, hcreated, hstopped, by rw [hok]; simp⟩
        · rw [hopen]
          by_cases hn : n = fd
          · simp [hn, hfd]
          · simp [hn]
        · rw [hcount]
          by_cases hn : n = fd
          · simp [hn, hfd]
          · simp [hn]

theorem closeFds_append (h : Host) (fds fds' : List (Option CInt)) :
    h.closeFds (fds ++ fds') =
      if none ∈ fds then h.closeFds fds else (h.closeFds fds).1.closeFds fds' := by
  induction fds generalizing h with
  | nil => rfl
  | cons fd rest ih =>
    cases fd with
    | none => simp [Host.closeFds]
    | some fd =>
      rw [cons_append, Host.closeFds, ih, Host.closeFds]
      simp

theorem closeSpecs_eq (specs : List StreamSpec) (h : Host) :
    h.closeSpecs specs = h.closeFds (owned specs) := by
  induction specs generalizing h with
  | nil => rfl
  | cons spec rest ih =>
    obtain ⟨-, -, -, -, -, -, hok⟩ := closeFds_spec spec.ownedFds h
    rw [Host.closeSpecs, owned_cons, closeFds_append]
    cases hclose : h.closeFds spec.ownedFds with
    | mk h' done =>
      rw [hclose] at hok
      cases done with
      | false =>
        rw [if_pos (by simpa using hok)]
      | true =>
        rw [if_neg (hok.mp rfl)]
        exact ih h'

theorem closedOnce_closeFds (fds : List (Option CInt)) (h : Host) :
    ClosedOnce fds h (h.closeFds fds).1 ↔
      ∀ fd, h.isOpen fd = true → some fd ∈ fds → some fd ∈ fds.takeWhile Option.isSome := by
  obtain ⟨log, hclosed, hopen, hcount, -⟩ := closeFds_spec fds h
  constructor
  · rintro ⟨log', hclosed', honce⟩ fd hfd hmem
    have hshut := (honce fd hmem hfd).1
    rw [hopen, hfd] at hshut
    simpa using hshut
  · intro hreach
    refine ⟨log, hclosed, fun fd hmem hfd => ?_⟩
    have := hreach fd hfd hmem
    rw [hopen, hcount, if_pos ⟨hfd, this⟩, hfd]
    simp [this]

/-! ## What is accepted -/

theorem validateSpec_fds {role : Role} {spec : StreamSpec} (h : validateSpec role spec = .ok ()) :
    none ∉ spec.ownedFds := by
  intro hmem
  have hany : (spec.ownedFds.any fun fd => fd.all fun n => decide (n.1 < 0)) = true :=
    any_eq_true.mpr ⟨none, hmem, rfl⟩
  simp only [validateSpec, hany, true_or, if_true] at h
  split_ifs at h

variable {specs : List StreamSpec}

theorem checkSpecs_ok {r : State} {keys : List Key} {fds : List (Option CInt)}
    (h : checkSpecs r keys fds specs = .ok ()) :
    none ∉ owned specs ∧ (specs.map StreamSpec.key).Nodup ∧
      ∀ spec ∈ specs, spec.key ∉ keys ∧
        ∀ previous, r.lastGeneration.get? spec.key = some previous → previous < spec.generation := by
  induction specs generalizing keys fds with
  | nil => exact ⟨not_mem_nil, nodup_nil, fun _ hmem => absurd hmem not_mem_nil⟩
  | cons spec rest ih =>
    rw [checkSpecs] at h
    cases hvalid : validateSpec r.role spec with
    | error msg =>
      rw [hvalid] at h
      cases h
    | ok v =>
      rw [hvalid] at h
      dsimp only at h
      split_ifs at h with hdup hgen hshare
      obtain ⟨hnone, hnodup, hrest⟩ := ih h
      refine ⟨?_, ?_, ?_⟩
      · rw [owned_cons, mem_append]
        exact not_or.mpr ⟨validateSpec_fds hvalid, hnone⟩
      · rw [map_cons, nodup_cons]
        refine ⟨fun hmem => ?_, hnodup⟩
        obtain ⟨other, hother, heq⟩ := mem_map.mp hmem
        exact (hrest other hother).1 (heq ▸ mem_cons_self)
      · intro other hother
        rcases mem_cons.mp hother with rfl | hother
        · refine ⟨(not_or.mp hdup).2, fun previous hprevious => ?_⟩
          rw [hprevious] at hgen
          simpa using hgen
        · exact ⟨fun hmem => (hrest other hother).1 (mem_cons_of_mem _ hmem),
            (hrest other hother).2⟩

/-! ## A call -/

theorem closeFds_created (fds : List (Option CInt)) (h : Host) (n : ℕ) :
    ({ h with created := n } : Host).closeFds fds =
      ({ (h.closeFds fds).1 with created := n }, (h.closeFds fds).2) := by
  induction fds generalizing h with
  | nil => rfl
  | cons fd rest ih =>
    cases fd with
    | none => rfl
    | some fd =>
      rw [Host.closeFds, Host.closeFds, ← ih (h.close fd)]
      unfold Host.close
      split <;> rfl

theorem spawn_spec (creates : ℕ → Bool) (specs : List StreamSpec) (h : Host)
    (started : List (StreamSpec × ℕ)) (hnone : none ∉ owned specs) :
    ∃ new rest, specs = new.map Prod.fst ++ rest ∧
      (spawn creates h started specs).2.1 = started ++ new ∧
      ((spawn creates h started specs).2.2 = none → rest = []) ∧
      new.map Prod.snd = range' h.created new.length ∧
      (spawn creates h started specs).1 =
        { (h.closeFds (owned (new.map Prod.fst))).1 with created := h.created + new.length } := by
  induction specs generalizing h started with
  | nil => exact ⟨[], [], rfl, (append_nil _).symm, fun _ => rfl, rfl, rfl⟩
  | cons spec specs ih =>
    rw [owned_cons, mem_append, not_or] at hnone
    rw [spawn]
    by_cases hcreates : creates started.length = true
    · obtain ⟨-, -, -, -, -, -, hok⟩ := closeFds_spec spec.ownedFds h
      rw [if_pos hcreates, closeFds_created, hok.mpr hnone.1]
      obtain ⟨new, rest, hspecs, hstarted, hrest, hpids, hhost⟩ :=
        ih { (h.closeFds spec.ownedFds).1 with created := h.created + 1 }
          (started ++ [(spec, h.created)]) hnone.2
      refine ⟨(spec, h.created) :: new, rest, by rw [hspecs]; rfl, ?_, hrest, ?_, ?_⟩
      · show (spawn _ _ _ _).2.1 = _
        rw [hstarted, append_assoc]
        rfl
      · rw [map_cons, hpids]
        rfl
      · show (spawn _ _ _ _).1 = _
        simp only [hhost, closeFds_created, map_cons, owned_cons, closeFds_append,
          if_neg hnone.1, length_cons]
        rw [Nat.add_assoc, Nat.add_comm 1]
    · rw [if_neg hcreates]
      exact ⟨[], spec :: specs, rfl, (append_nil _).symm, fun h => (by cases h), rfl, rfl⟩

theorem filter_rest {new : List (StreamSpec × ℕ)} {rest : List StreamSpec}
    (h : ((new.map Prod.fst ++ rest).map StreamSpec.key).Nodup) :
    (new.map Prod.fst ++ rest).filter (fun spec => spec.key ∉ new.map fun s => s.1.key) = rest := by
  rw [map_append, nodup_append] at h
  have hkeys : (new.map fun s => s.1.key) = (new.map Prod.fst).map StreamSpec.key := by
    rw [map_map]
    rfl
  rw [hkeys, filter_append, filter_eq_nil_iff.mpr, nil_append, filter_eq_self]
  · intro spec hspec
    rw [decide_eq_true_eq]
    exact fun hmem => h.2.2 _ hmem _ (mem_map_of_mem hspec) rfl
  · intro spec hspec
    rw [decide_eq_true_eq, not_not]
    exact mem_map_of_mem hspec

/-- **What a call that is not over the limit does**: it closes the descriptors in order, and either
the streams run or nothing does. -/
theorem addMany_spec (creates : ℕ → Bool) (r : State) (h : Host)
    (hlimit : r.running.size + specs.length ≤ maxRemoteStreams) :
    (addMany creates r h specs).2.1.isOpen = (h.closeFds (owned specs)).1.isOpen ∧
    (addMany creates r h specs).2.1.closed = (h.closeFds (owned specs)).1.closed ∧
    ((addMany creates r h specs).2.2 ≠ none → (addMany creates r h specs).1 = r ∧
      ∀ n, h.created ≤ n → n < (addMany creates r h specs).2.1.created →
        n ∈ (addMany creates r h specs).2.1.stopped) ∧
    ((addMany creates r h specs).2.2 = none → checkSpecs r [] [] specs = .ok () ∧
      ∃ started, started.map Prod.fst = specs ∧
        (addMany creates r h specs).1 = r.commit started) := by
  rw [addMany]
  by_cases hempty : specs = []
  · subst hempty
    exact ⟨rfl, rfl, fun hraise => absurd rfl hraise, fun _ => ⟨rfl, [], rfl, rfl⟩⟩
  rw [if_neg hempty, if_neg (by omega)]
  cases hcheck : checkSpecs r [] [] specs with
  | error msg =>
    have hclose := closeSpecs_eq specs h
    obtain ⟨-, -, -, -, hcreated, -, -⟩ := closeFds_spec (owned specs) h
    rw [← hclose] at hcreated ⊢
    dsimp only
    cases hc : h.closeSpecs specs with
    | mk h' done =>
      rw [hc] at hcreated
      have hquiet : ∀ n, h.created ≤ n → n < h'.created → n ∈ h'.stopped :=
        fun n hlow hhigh => absurd hhigh (by rw [hcreated]; exact Nat.not_lt.mpr hlow)
      cases done with
      | true => exact ⟨rfl, rfl, fun _ => ⟨rfl, hquiet⟩, fun hok => (by cases hok)⟩
      | false => exact ⟨rfl, rfl, fun _ => ⟨rfl, hquiet⟩, fun hok => (by cases hok)⟩
  | ok v =>
    obtain ⟨hnone, hnodup, -⟩ := checkSpecs_ok hcheck
    obtain ⟨new, rest, hspecs, hstarted, hrest, hpids, hhost⟩ := spawn_spec creates specs h [] hnone
    dsimp only
    cases hspawn : spawn creates h [] specs with
    | mk h' rest' =>
      obtain ⟨started, e⟩ := rest'
      rw [hspawn] at hstarted hrest hhost
      replace hstarted : started = new := hstarted
      replace hhost : h' = { (h.closeFds (owned (new.map Prod.fst))).1 with
        created := h.created + new.length } := hhost
      subst hstarted
      cases e with
      | none =>
        have hnil := hrest rfl
        subst hnil
        rw [append_nil] at hspecs
        subst hhost
        rw [← hspecs]
        exact ⟨rfl, rfl, fun hraise => absurd rfl hraise, fun _ => ⟨rfl, started, hspecs.symm, rfl⟩⟩
      | some e =>
        have hsplit : owned specs = owned (started.map Prod.fst) ++ owned rest := by
          rw [hspecs, owned, flatMap_append]
          rfl
        rw [hsplit, mem_append, not_or] at hnone
        rw [hspecs] at hnodup
        have hfilter := filter_rest hnodup
        rw [← hspecs] at hfilter
        obtain ⟨-, -, -, -, -, -, hok⟩ := closeFds_spec (owned rest)
          (h.closeFds (owned (started.map Prod.fst))).1
        obtain ⟨-, -, -, -, hcreated, -, -⟩ := closeFds_spec (owned specs) h
        dsimp only
        rw [hfilter, closeSpecs_eq, hhost, closeFds_created, hok.mpr hnone.2, hsplit,
          closeFds_append, if_neg hnone.1]
        refine ⟨rfl, rfl, fun _ => ⟨rfl, fun n hlow hhigh => ?_⟩, fun hok => (by cases hok)⟩
        show n ∈ _ ++ started.map Prod.snd
        rw [hpids]
        refine mem_append_right _ (mem_range'_1.mpr ⟨hlow, ?_⟩)
        exact hhigh

theorem addMany_over (creates : ℕ → Bool) (r : State) (h : Host) (hempty : specs ≠ [])
    (hlimit : maxRemoteStreams < r.running.size + specs.length) :
    addMany creates r h specs = (r, h, some (.valueError "nested stream limit exceeded")) := by
  rw [addMany, if_neg hempty, if_pos hlimit]

theorem addMany_raised {creates : ℕ → Bool} {r : State} {h : Host}
    (hraise : (addMany creates r h specs).2.2 ≠ none) :
    (addMany creates r h specs).1 = r ∧
      ∀ n, h.created ≤ n → n < (addMany creates r h specs).2.1.created →
        n ∈ (addMany creates r h specs).2.1.stopped := by
  by_cases hlimit : r.running.size + specs.length ≤ maxRemoteStreams
  · exact (addMany_spec creates r h hlimit).2.2.1 hraise
  by_cases hempty : specs = []
  · rw [addMany, if_pos hempty] at hraise
    exact absurd rfl hraise
  rw [addMany_over creates r h hempty (by omega)]
  exact ⟨rfl, fun n hlow hhigh => absurd hhigh (Nat.not_lt.mpr hlow)⟩

theorem addMany_returned {creates : ℕ → Bool} {r : State} {h : Host}
    (hok : (addMany creates r h specs).2.2 = none) :
    checkSpecs r [] [] specs = .ok () ∧
      ∃ started, started.map Prod.fst = specs ∧ (addMany creates r h specs).1 = r.commit started := by
  by_cases hlimit : r.running.size + specs.length ≤ maxRemoteStreams
  · exact (addMany_spec creates r h hlimit).2.2.2 hok
  by_cases hempty : specs = []
  · subst hempty
    exact ⟨rfl, [], rfl, rfl⟩
  rw [addMany_over creates r h hempty (by omega)] at hok
  cases hok

/-! ## Generations -/

theorem commit_cons (r : State) (s : StreamSpec × ℕ) (started : List (StreamSpec × ℕ)) :
    r.commit (s :: started) =
      ({ r with
        running := r.running.insert s.1.key s
        lastGeneration := r.lastGeneration.insert s.1.key s.1.generation } : State).commit started :=
  rfl

theorem commit_get_of_not_mem (started : List (StreamSpec × ℕ)) (r : State) {k : Key}
    (h : k ∉ started.map fun s => s.1.key) :
    (r.commit started).lastGeneration.get? k = r.lastGeneration.get? k := by
  induction started generalizing r with
  | nil => rfl
  | cons s rest ih =>
    rw [map_cons, mem_cons, not_or] at h
    rw [commit_cons, ih _ h.2]
    exact PyDict.get?_insert_of_ne _ _ (Ne.symm h.1)

theorem commit_get_of_mem {started : List (StreamSpec × ℕ)} (r : State)
    (hnodup : (started.map fun s => s.1.key).Nodup) {s : StreamSpec × ℕ} (h : s ∈ started) :
    (r.commit started).lastGeneration.get? s.1.key = some s.1.generation := by
  induction started generalizing r with
  | nil => exact absurd h not_mem_nil
  | cons s' rest ih =>
    rw [map_cons, nodup_cons] at hnodup
    rw [commit_cons]
    rcases mem_cons.mp h with rfl | h
    · rw [commit_get_of_not_mem rest _ hnodup.1]
      exact PyDict.get?_insert_self _ _ _
    · exact ih _ hnodup.2 h

/-- The registry, what the process holds, and the streams that were added, oldest first. -/
structure Session where
  state : State
  host : Host
  added : List (Key × ℤ) := []

/-- A call of a method; `exited` says which processes have ended. -/
inductive Act where
  | addMany (creates : ℕ → Bool) (specs : List StreamSpec)
  | poll (exited : ℕ → Bool)
  | remove (key : Key)
  | detachAll

def step (s : Session) : Act → Session
  | .addMany creates specs =>
    let (state, host, raised) := addMany creates s.state s.host specs
    { state, host, added := s.added ++
        if raised.isNone then specs.map fun spec => (spec.key, spec.generation) else [] }
  | .poll exited =>
    { s with state := { s.state with running := s.state.running.filter fun e => !exited e.2.2 } }
  | .remove key =>
    { s with
      state := { s.state with running := s.state.running.erase key }
      host := { s.host with
        stopped := s.host.stopped ++ ((s.state.running.get? key).map Prod.snd).toList } }
  | .detachAll =>
    { s with
      state := { s.state with running := ∅ }
      host := { s.host with
        stopped := s.host.stopped ++ s.state.running.entries.map fun e => e.2.2 } }

/-- Later additions of a key carry larger generations. -/
def Session.Increasing (s : Session) : Prop :=
  s.added.Pairwise fun a b => a.1 = b.1 → a.2 < b.2

/-- The additions of a key are at most its watermark. -/
structure Session.Inv (s : Session) : Prop where
  increasing : s.Increasing
  bounded : ∀ a ∈ s.added, ∃ m, s.state.lastGeneration.get? a.1 = some m ∧ a.2 ≤ m

theorem Session.Inv.step {s : Session} (h : s.Inv) (a : Act) : (Registry.step s a).Inv := by
  cases a with
  | poll exited => exact ⟨h.increasing, h.bounded⟩
  | remove key => exact ⟨h.increasing, h.bounded⟩
  | detachAll => exact ⟨h.increasing, h.bounded⟩
  | addMany creates specs =>
    cases hres : (addMany creates s.state s.host specs).2.2 with
    | some e =>
      have hsame := (addMany_raised (by rw [hres]; simp)).1
      have hadded : (Registry.step s (.addMany creates specs)).added = s.added := by
        show s.added ++ (if (addMany creates s.state s.host specs).2.2.isNone = true then _
          else []) = s.added
        rw [hres]
        exact append_nil _
      have hstate : (Registry.step s (.addMany creates specs)).state = s.state := hsame
      exact ⟨by rw [Session.Increasing, hadded]; exact h.increasing,
        by rw [hadded, hstate]; exact h.bounded⟩
    | none =>
      obtain ⟨hcheck, started, hfst, hcommit⟩ := addMany_returned hres
      obtain ⟨-, hnodup, hnewer⟩ := checkSpecs_ok hcheck
      have hkeys : (started.map fun s => s.1.key) = specs.map StreamSpec.key := by
        rw [← hfst, map_map]
        rfl
      have hadded : (Registry.step s (.addMany creates specs)).added =
          s.added ++ specs.map fun spec => (spec.key, spec.generation) := by
        show s.added ++ (if (addMany creates s.state s.host specs).2.2.isNone = true then _
          else []) = _
        rw [hres]
        rfl
      have hstate : (Registry.step s (.addMany creates specs)).state = s.state.commit started :=
        hcommit
      have hnew : ∀ spec ∈ specs,
          (s.state.commit started).lastGeneration.get? spec.key = some spec.generation := by
        intro spec hspec
        rw [← hfst] at hspec
        obtain ⟨p, hp, rfl⟩ := mem_map.mp hspec
        exact commit_get_of_mem s.state (hkeys ▸ hnodup) hp
      -- an older addition of the key is below its watermark, and so below the new one
      have holder : ∀ a ∈ s.added, ∀ spec ∈ specs, a.1 = spec.key → a.2 < spec.generation := by
        intro a ha spec hspec hkey
        obtain ⟨m, hm, hle⟩ := h.bounded a ha
        rw [hkey] at hm
        exact lt_of_le_of_lt hle ((hnewer spec hspec).2 m hm)
      constructor
      · rw [Session.Increasing, hadded, pairwise_append]
        refine ⟨h.increasing, ?_, ?_⟩
        · rw [pairwise_map]
          exact (pairwise_map.mp hnodup).imp fun hne heq => absurd heq hne
        · intro a ha b hb hab
          obtain ⟨spec, hspec, rfl⟩ := mem_map.mp hb
          exact holder a ha spec hspec hab
      · rw [hadded, hstate]
        intro a ha
        rcases mem_append.mp ha with ha | ha
        · by_cases hmem : a.1 ∈ specs.map StreamSpec.key
          · obtain ⟨spec, hspec, hkey⟩ := mem_map.mp hmem
            exact ⟨spec.generation, hkey ▸ hnew spec hspec,
              le_of_lt (holder a ha spec hspec hkey.symm)⟩
          · obtain ⟨m, hm, hle⟩ := h.bounded a ha
            exact ⟨m, by rw [commit_get_of_not_mem started _ (hkeys ▸ hmem)]; exact hm, hle⟩
        · obtain ⟨spec, hspec, rfl⟩ := mem_map.mp ha
          exact ⟨spec.generation, hnew spec hspec, le_refl _⟩

/-! ## The contract -/

/-- The call is not over the limit, and no open descriptor of the specs stands only behind a missing
one. -/
def Covered (r : State) (h : Host) (specs : List StreamSpec) : Prop :=
  ∀ fd, h.isOpen fd = true → some fd ∈ owned specs →
    r.running.size + specs.length ≤ maxRemoteStreams ∧
      some fd ∈ (owned specs).takeWhile Option.isSome

/-- **A call closes every descriptor it was given exactly once**, and leaves nothing behind if it
raises, exactly when the specs are covered; and the generations of a key increase in every run. -/
theorem descriptors_closed_iff (creates : ℕ → Bool) (r : State) (h : Host)
    (specs : List StreamSpec) (state : State) (host : Host) (acts : List Act) :
    (ClosedOnce (owned specs) h (addMany creates r h specs).2.1 ∧
      ((addMany creates r h specs).2.2 ≠ none → (addMany creates r h specs).1 = r ∧
        ∀ n, h.created ≤ n → n < (addMany creates r h specs).2.1.created →
          n ∈ (addMany creates r h specs).2.1.stopped) ↔ Covered r h specs) ∧
    (run step { state, host } acts).Increasing := by
  refine ⟨⟨fun hclosed => ?_, fun hcovered => ?_⟩, ?_⟩
  · intro fd hfd hmem
    by_cases hlimit : r.running.size + specs.length ≤ maxRemoteStreams
    · obtain ⟨hopen, hlog, -⟩ := addMany_spec creates r h hlimit
      have honce : ClosedOnce (owned specs) h (h.closeFds (owned specs)).1 := by
        obtain ⟨log, hclosed', hall⟩ := hclosed.1
        exact ⟨log, hlog ▸ hclosed', hopen ▸ hall⟩
      exact ⟨hlimit, (closedOnce_closeFds _ _).mp honce fd hfd hmem⟩
    · have hempty : specs ≠ [] := by
        rintro rfl
        exact absurd hmem List.not_mem_nil
      rw [addMany_over creates r h hempty (by omega)] at hclosed
      obtain ⟨log, -, hall⟩ := hclosed.1
      have hshut := (hall fd hmem hfd).1
      rw [hfd] at hshut
      cases hshut
  · refine ⟨?_, addMany_raised⟩
    by_cases hlimit : r.running.size + specs.length ≤ maxRemoteStreams
    · obtain ⟨hopen, hlog, -⟩ := addMany_spec creates r h hlimit
      obtain ⟨log, hclosed, hall⟩ := (closedOnce_closeFds (owned specs) h).mpr
        fun fd hfd hmem => (hcovered fd hfd hmem).2
      exact ⟨log, hlog ▸ hclosed, hopen ▸ hall⟩
    · have hclosed : (addMany creates r h specs).2.1 = h := by
        by_cases hempty : specs = []
        · rw [addMany, if_pos hempty]
        · rw [addMany_over creates r h hempty (by omega)]
      refine ⟨[], by rw [hclosed, List.append_nil], fun fd hmem hfd => ?_⟩
      exact absurd (hcovered fd hfd hmem).1 hlimit
  · have hstep : ∀ (s : Session) a, True → s.Inv → (step s a).Inv := fun s a _ h => h.step a
    have hinit : Session.Inv { state, host } :=
      ⟨List.Pairwise.nil, fun a ha => absurd ha List.not_mem_nil⟩
    exact (Meets.invariant hstep (Meets.of_forall (fun _ _ => trivial) _ acts) hinit).increasing

/-- The first spec lacks `source_close_fd`. -/
def missingClose : List StreamSpec :=
  [⟨"laptop", "editor", 1, "127.0.0.1", 7000, ⟨3, by decide⟩, ⟨4, by decide⟩, ⟨5, by decide⟩,
      ⟨6, by decide⟩, ⟨7, by decide⟩, some ⟨8, by decide⟩, none⟩,
    ⟨"laptop", "browser", 1, "127.0.0.1", 7001, ⟨9, by decide⟩, ⟨10, by decide⟩, ⟨11, by decide⟩,
      ⟨12, by decide⟩, ⟨13, by decide⟩, some ⟨14, by decide⟩, some ⟨15, by decide⟩⟩]

/-- The descriptors of the second spec stay open. -/
theorem missing_close_leaks :
    ((addMany (fun _ => true) ⟨.source, ∅, ∅⟩ ⟨fun _ => true, [], 0, []⟩ missingClose).2.1.isOpen
        ⟨9, by decide⟩ = true ∧
      (addMany (fun _ => true) ⟨.source, ∅, ∅⟩ ⟨fun _ => true, [], 0, []⟩ missingClose).2.2 =
        some .typeError) ∧
    ¬ ∀ creates r h specs, ClosedOnce (owned specs) h (addMany creates r h specs).2.1 := by
  have hopen : (addMany (fun _ => true) ⟨.source, ∅, ∅⟩ ⟨fun _ => true, [], 0, []⟩
      missingClose).2.1.isOpen ⟨9, by decide⟩ = true := by decide +kernel
  refine ⟨⟨hopen, by decide +kernel⟩, fun h => ?_⟩
  obtain ⟨log, -, hall⟩ := h (fun _ => true) ⟨.source, ∅, ∅⟩ ⟨fun _ => true, [], 0, []⟩ missingClose
  have hshut := (hall ⟨9, by decide⟩ (by decide) rfl).1
  rw [hopen] at hshut
  cases hshut

end Registry

end RemoteNested
