/-
# Fragments that name a missing user

The bus aborts when it reads a policy fragment whose numeric `user=` does not resolve.  Every
account transaction therefore purges the directory first, revokes a grant before it removes the
account, and writes a grant only for a uid that resolves.

This holds of a call unless the directory cannot be listed, a fragment names a missing user in
a spelling that the purge does not recognise, or the grant of a new silo fails after its fragment
is in place: `_create_tier3_user` then removes the account and leaves the fragment
(`grant_failure_strands`).  `fragments_resolve` is the guarantee for every other run.

How the bus reads a fragment is a parameter, `users`.
-/
import QDistro.AccountRemoval

namespace Silo

open EffectRules TransitionSystem World

/-! ## The directory -/

namespace Host

theorem fragment_place_self (h : Host) (n : SiloName) (uid : ℕ) :
    (h.place n uid).fragment n = some (.text (relayPolicyXml n uid)) :=
  PyDict.get?_insert_self _ _ _

theorem fragment_place_of_ne (h : Host) {n m : SiloName} (uid : ℕ) (hne : n ≠ m) :
    (h.place n uid).fragment m = h.fragment m :=
  PyDict.get?_insert_of_ne _ _ fun heq => hne (relayPolicyFilename_injective heq)

theorem fragment_unlink_self (h : Host) (n : SiloName) : (h.unlink n).fragment n = none :=
  PyDict.get?_erase_self _ _

theorem fragment_of_unlink {h : Host} {n m : SiloName} {c : Content}
    (hc : (h.unlink n).fragment m = some c) : h.fragment m = some c :=
  (PyDict.get?_erase_cases hc).2

theorem uidExists_addUser {h : Host} {v : ℕ} (hv : h.uidExists v = true) (name : String)
    (uid : ℕ) : (h.addUser name uid).uidExists v = true := by
  rw [uidExists, addUser, List.any_append, Bool.or_eq_true]
  exact .inl hv

theorem mem_listing {h : Host} {n : SiloName} {c : Content} (hc : h.fragment n = some c) :
    n ∈ h.files.keys.filterMap relayPolicySiloName := by
  refine List.mem_filterMap.mpr ⟨relayPolicyFilename n, ?_, relayPolicySiloName_filename n⟩
  exact List.mem_map.mpr ⟨_, PyDict.lookup_mem hc, rfl⟩

end Host

section Safety

variable (u : UnicodeDb) (users : Content → List ℕ)

/-- Every numeric user of every fragment resolves. -/
def Host.Resolved (h : Host) : Prop :=
  ∀ (n : SiloName) (c : Content), h.fragment n = some c → ∀ v ∈ users c, h.uidExists v = true

/-- Every numeric user of every fragment, except possibly one, resolves. -/
def Host.ResolvedExcept (h : Host) (uid : ℕ) : Prop :=
  ∀ (n : SiloName) (c : Content), h.fragment n = some c →
    ∀ v ∈ users c, v = uid ∨ h.uidExists v = true

/-- An account is removed only without its fragment, and the bus sees only users that resolve. -/
def Effect.Safe : Effect → Prop
  | .userdel n _ host => host.fragment n = none
  | .wrote _ host => host.Resolved users
  | .reloaded host => host.Resolved users

/-- Every effect so far was safe. -/
def World.LogSafe (w : World) : Prop := ∀ e ∈ w.log, e.Safe users

variable {users}

variable {w : World}

theorem World.LogSafe.record (h : w.LogSafe users) {e : Effect} (he : e.Safe users) :
    (w.record e).LogSafe users := by
  intro d hd
  rcases List.mem_cons.mp hd with rfl | hd
  · exact he
  · exact h d hd

namespace Host

variable {h : Host}

theorem Resolved.except (hr : h.Resolved users) (uid : ℕ) :
    h.ResolvedExcept users uid := fun n c hc v hv => .inr (hr n c hc v hv)

theorem ResolvedExcept.resolved {uid : ℕ} (hr : h.ResolvedExcept users uid)
    (huid : h.uidExists uid = true) : h.Resolved users := by
  intro n c hc v hv
  rcases hr n c hc v hv with rfl | hv
  · exact huid
  · exact hv

section

variable (hr : h.Resolved users)
include hr

theorem Resolved.unlink (n : SiloName) :
    (h.unlink n).Resolved users :=
  fun m c hc v hv => hr m c (fragment_of_unlink hc) v hv

theorem Resolved.addUser (name : String) (uid : ℕ) :
    (h.addUser name uid).Resolved users :=
  fun m c hc v hv => uidExists_addUser (hr m c hc v hv) name uid

/-- The bus reads a generated fragment as it was meant. -/
def ReadsGenerated (users : Content → List ℕ) : Prop :=
  ∀ (n : SiloName) (uid : ℕ), 2000 ≤ uid → uid ≤ 60000 →
    ∀ v ∈ users (.text (relayPolicyXml n uid)), v = uid

theorem Resolved.place (hxml : ReadsGenerated users) (n : SiloName) {uid : ℕ} (hmin : 2000 ≤ uid)
    (hmax : uid ≤ 60000) (huid : h.uidExists uid = true) :
    (h.place n uid).Resolved users := by
  intro m c hc v hv
  by_cases hnm : n = m
  · subst hnm
    rw [fragment_place_self] at hc
    obtain rfl := Option.some.inj hc
    rw [hxml n uid hmin hmax v hv]
    exact huid
  · rw [fragment_place_of_ne h uid hnm] at hc
    exact hr m c hc v hv

theorem Resolved.delUser {name : String} {uid : ℕ} (huid : ∀ v, (name, v) ∈ h.accounts → v = uid) :
    (h.delUser name).ResolvedExcept users uid := by
  intro m c hc v hv
  have hknown := hr m c hc v hv
  rw [uidExists, List.any_eq_true] at hknown
  obtain ⟨⟨owner, w⟩, hmem, hw⟩ := hknown
  obtain rfl : w = v := of_decide_eq_true hw
  by_cases hname : owner = name
  · subst hname
    exact .inl (huid w hmem)
  · refine .inr ?_
    rw [uidExists, List.any_eq_true]
    refine ⟨(owner, w), List.mem_filter.mpr ⟨hmem, ?_⟩, hw⟩
    simpa using hname

end

end Host

/-! ## The purge -/

/-- What the purge leaves: a fragment of a tier3-user silo whose recognised users resolve. -/
def Host.Kept (h : Host) (n : SiloName) : Prop :=
  ∃ (c : Content) (uids : List ℕ), h.fragment n = some c ∧ policyUids u c = some uids ∧
    uids ≠ [] ∧ ∀ v ∈ uids, h.uidExists v = true

variable {op : Op} {h : Host}

theorem ask_host {α : Type} (answer : Host → α) :
    Triple (fun w : World => w.host = h) (ask op fun w => answer w.host)
      (fun a w => w.host = h ∧ a = answer h) (fun _ w => w.host = h) := by
  rintro w rfl
  unfold ask perform
  cases w.next op with
  | ok => exact ⟨rfl, rfl⟩
  | refuse msg => exact rfl
  | lose msg => exact rfl

theorem ask_or_host {α : Type} (answer : Host → α) (fallback : α) {E : SiloError → World → Prop} :
    Triple (fun w : World => w.host = h)
      (MonadExcept.tryCatch (ask op fun w : World => answer w.host) fun _ => pure fallback)
      (fun a w => w.host = h ∧ (a = answer h ∨ a = fallback)) E := by
  refine .tryCatch ((ask_host answer).conseq (fun _ hw => hw)
    (fun a w hw => ⟨hw.1, .inl hw.2⟩) fun _ _ hw => hw) fun e => ?_
  exact .pure fun w hw => ⟨hw, .inr rfl⟩

theorem anyMissing_host (uids : List ℕ) :
    Triple (fun w => w.host = h) (anyMissing uids)
      (fun bad w => w.host = h ∧ (bad = false → ∀ v ∈ uids, h.uidExists v = true))
      (fun _ w => w.host = h) := by
  refine (Triple.foldlM (I := fun before bad (w : World) => w.host = h ∧
    (bad = false → ∀ v ∈ before, h.uidExists v = true)) (fun before uid after bad _ => ?_)
    false).weaken fun w hw => ⟨hw, fun _ v hv => by cases hv⟩
  refine Triple.of_forall fun s hs => ?_
  refine Triple.bind ((ask_host fun h => h.uidExists uid).weaken (P := fun t => t = s)
    fun t ht => by rw [ht]; exact hs.1) fun known => ?_
  refine .pure fun t ht => ⟨ht.1, fun hbad v hv => ?_⟩
  rw [Bool.or_eq_false_iff, Bool.not_eq_false'] at hbad
  rcases List.mem_append.mp hv with hv | hv
  · exact hs.2 hbad.1 v hv
  · rw [List.mem_singleton.mp hv, ← ht.2]
    exact hbad.2

theorem textUnsafe_host (n : SiloName) :
    Triple (fun w => w.host = h) (textUnsafe u n)
      (fun bad w => w.host = h ∧ (bad = false → h.Kept u n)) (fun _ w => w.host = h) := by
  have huids : Triple (fun w => w.host = h) (relayPolicyUids u n)
      (fun uids w => w.host = h ∧ ∀ us, uids = some us → ∃ c, h.fragment n = some c ∧
        policyUids u c = some us) (fun _ w => w.host = h) := by
    refine .bind (ask_or_host (fun h => h.fragment n) none) fun content => ?_
    cases content with
    | none => exact .pure fun w hw => ⟨hw.1, fun us hus => by cases hus⟩
    | some c =>
      dsimp only
      rcases hc : policyUids u c with _ | us
      · exact .throw fun w hw => hw.1
      · refine .pure fun w hw => ⟨hw.1, fun us' hus => ?_⟩
        obtain rfl := Option.some.inj hus
        rcases hw.2 with hfrag | hfrag
        · exact ⟨c, hfrag.symm, hc⟩
        · cases hfrag
  refine .bind huids fun uids => ?_
  rcases uids with _ | ⟨_ | ⟨uid, rest⟩⟩
  · exact .pure fun w hw => ⟨hw.1, fun hbad => by cases hbad⟩
  · exact .pure fun w hw => ⟨hw.1, fun hbad => by cases hbad⟩
  · refine .of_forall fun s hs => ?_
    obtain ⟨c, hfrag, hc⟩ := hs.2 _ rfl
    refine (anyMissing_host (uid :: rest)).conseq (fun t ht => by rw [ht]; exact hs.1)
      (fun bad w hw => ⟨hw.1, fun hbad => ?_⟩) fun _ _ hw => hw
    exact ⟨c, uid :: rest, hfrag, hc, List.cons_ne_nil _ _, hw.2 hbad⟩

theorem fragmentUnsafe_host (want : SiloName → Option ℕ) (n : SiloName)
    {E : SiloError → World → Prop} :
    Triple (fun w => w.host = h) (fragmentUnsafe u want n)
      (fun bad w => w.host = h ∧ (bad = false → (want n).isSome = true ∧ h.Kept u n)) E := by
  unfold fragmentUnsafe
  rcases want n with _ | uid
  · exact .pure fun w hw => ⟨hw, fun hbad => by cases hbad⟩
  · refine .bind (ask_or_host (fun h => h.userUidMatches n.val uid) false) fun holds => ?_
    refine .ite (fun _ => ?_) fun _ => .pure fun w hw =>
      ⟨hw.1, fun hbad => by cases hbad⟩
    refine .tryCatch ((textUnsafe_host u n).conseq (fun w hw => hw.1)
      (fun bad w hw => ⟨hw.1, fun hbad => ⟨rfl, hw.2 hbad⟩⟩) fun _ _ hw => hw) fun e => ?_
    exact .pure fun w hw => ⟨hw, fun hbad => by cases hbad⟩

/-- What is left after the purge went over some of the fragments. -/
structure Purging (h : Host) (want : SiloName → Option ℕ) (before : List SiloName)
    (acc : List SiloName × List SiloName) (w : World) : Prop where
  accounts : w.host.accounts = h.accounts
  shrinks : ∀ (m : SiloName) (c : Content), w.host.fragment m = some c → h.fragment m = some c
  visited : ∀ m ∈ before, m ∈ acc.2 ∨ w.host.fragment m = none ∨
    (want m).isSome = true ∧ h.Kept u m

theorem Host.Kept.mono {h' : Host} {n : SiloName} (hk : h'.Kept u n)
    (haccounts : h'.accounts = h.accounts)
    (hshrinks : ∀ (m : SiloName) (c : Content), h'.fragment m = some c → h.fragment m = some c) :
    h.Kept u n := by
  obtain ⟨c, uids, hfrag, hc, hne, hall⟩ := hk
  refine ⟨c, uids, hshrinks n c hfrag, hc, hne, fun v hv => ?_⟩
  have hknown := hall v hv
  rw [uidExists, haccounts] at hknown
  exact hknown

theorem removeRelayPolicy_quiet (n : SiloName) :
    Triple (fun w => w.host = h) (removeRelayPolicy n false)
      (fun _ w => w.host = h.unlink n) (fun _ w => w.host = h ∨ w.host = h.unlink n) := by
  refine .bind (ask_or_host (fun h => (h.fragment n).isSome) false) fun existed => ?_
  refine .bind (Q := fun _ w => w.host = h.unlink n) ?_ fun _ => ?_
  · rintro w ⟨rfl, -⟩
    unfold perform
    cases w.next .unlinkFragment with
    | ok => exact rfl
    | refuse msg => exact .inl rfl
    | lose msg => exact .inr rfl
  · rw [Bool.and_false]
    exact .pure fun w hw => hw

theorem purgeOne_host {want : SiloName → Option ℕ} (before : List SiloName)
    (acc : List SiloName × List SiloName) (n : SiloName) :
    Triple (Purging u h want before acc) (purgeOne u want acc n)
      (fun acc' => Purging u h want (before ++ [n]) acc') (fun _ _ => False) := by
  refine .of_forall fun s hs => ?_
  refine .bind ((fragmentUnsafe_host (h := s.host) u want n).weaken (P := fun t => t = s)
    fun t ht => by rw [ht]) fun bad => ?_
  refine .ite (fun _ => ?_) fun hbad => ?_
  · -- the fragment is removed, or it is listed among those that could not be
    have hgone : ∀ (w : World), w.host = s.host ∨ w.host = s.host.unlink n →
        ∀ acc', (n ∈ acc'.2 ∨ w.host.fragment n = none) → (∀ m ∈ acc.2, m ∈ acc'.2) →
        Purging u h want (before ++ [n]) acc' w := by
      intro w hw acc' hn hacc
      have haccounts : w.host.accounts = s.host.accounts := by
        rcases hw with hw | hw
        · rw [hw]
        · rw [hw]
          rfl
      have hshrinks : ∀ m c, w.host.fragment m = some c → s.host.fragment m = some c := by
        intro m c hc
        rcases hw with hw | hw <;> rw [hw] at hc
        · exact hc
        · exact Host.fragment_of_unlink hc
      refine ⟨haccounts.trans hs.accounts, fun m c hc => hs.shrinks m c (hshrinks m c hc), ?_⟩
      intro m hm
      rcases List.mem_append.mp hm with hm | hm
      · rcases hs.visited m hm with hmem | hnone | hkept
        · exact .inl (hacc m hmem)
        · refine .inr (.inl ?_)
          rcases hfrag : w.host.fragment m with _ | c
          · rfl
          · rw [hshrinks m c hfrag] at hnone
            cases hnone
        · exact .inr (.inr hkept)
      · rw [List.mem_singleton.mp hm]
        exact hn.elim .inl fun hnone => .inr (.inl hnone)
    refine .tryCatch (E := fun _ w => w.host = s.host ∨ w.host = s.host.unlink n) ?_
      fun e => .pure fun w hw => ?_
    · refine .bind ((removeRelayPolicy_quiet n).weaken fun w hw => hw.1) fun _ => ?_
      refine .pure fun w hw => hgone w (.inr hw) _ (.inr ?_) fun m hm => hm
      rw [hw]
      exact Host.fragment_unlink_self _ _
    · exact hgone w hw _ (.inl (List.mem_append_right _ List.mem_cons_self))
        fun m hm => List.mem_append_left _ hm
  · refine .pure fun w hw => ?_
    obtain ⟨hsome, hkept⟩ := hw.2 (by simpa using hbad)
    refine ⟨by rw [hw.1]; exact hs.accounts, fun m c hc => ?_, fun m hm => ?_⟩
    · rw [hw.1] at hc
      exact hs.shrinks m c hc
    · rw [hw.1]
      rcases List.mem_append.mp hm with hm | hm
      · exact hs.visited m hm
      · rw [List.mem_singleton.mp hm]
        exact .inr (.inr ⟨hsome, hkept.mono u hs.accounts hs.shrinks⟩)

/-- What the purge comes to: fragments only go, and when every fragment was listed and none was
left behind, those that stay are ones the purge keeps. -/
structure Purged (s : World) (acc : List SiloName × List SiloName) (w : World) : Prop where
  accounts : w.host.accounts = s.host.accounts
  shrinks : ∀ (m : SiloName) (c : Content), w.host.fragment m = some c →
    s.host.fragment m = some c
  kept : s.next .listdir = .ok → acc.2 = [] → ∀ (m : SiloName) (c : Content),
    w.host.fragment m = some c → (s.want m).isSome = true ∧ s.host.Kept u m

theorem purge_host (s : World) :
    Triple (fun w => w = s) (purgeUnsafeRelayFragments u) (fun acc => Purged u s acc)
      (fun _ _ => False) := by
  refine Triple.get_bind fun w hw => ?_
  subst hw
  have hlist : Triple (fun t => t = w) listRelayPolicies
      (fun found t => t.host = w.host ∧ (w.next .listdir = .ok →
        found = w.host.files.keys.filterMap relayPolicySiloName)) (fun _ _ => False) := by
    rintro t rfl
    show Ends _ _ (Act.orElse _ _ t)
    unfold Act.orElse ask perform
    rcases hnext : t.next .listdir with _ | msg | msg
    · exact ⟨rfl, fun _ => rfl⟩
    · exact ⟨rfl, fun h => by cases h⟩
    · exact ⟨rfl, fun h => by cases h⟩
  refine Triple.bind hlist fun found => ?_
  refine Triple.of_forall fun s hs => ?_
  refine ((Triple.foldlM (I := fun before acc => Purging u w.host w.want before acc)
    (fun before n after acc _ => purgeOne_host u before acc n) ([], [])).weaken (fun t ht => ?_)).conseq
    (fun _ h => h) (fun acc t ht => ?_) fun _ _ h => h
  · refine ⟨by rw [ht, hs.1], fun m c hc => ?_, fun m hm => by cases hm⟩
    rw [ht, hs.1] at hc
    exact hc
  · refine ⟨ht.accounts, ht.shrinks, fun hok hnone m c hc => ?_⟩
    have hmem : m ∈ found.insertionSort fun a b => a.val ≤ b.val := by
      rw [List.mem_insertionSort, hs.2 hok]
      exact Host.mem_listing (ht.shrinks m c hc)
    rcases ht.visited m hmem with hleft | hgone | hkept
    · rw [hnone] at hleft
      cases hleft
    · rw [hc] at hgone
      cases hgone
    · exact hkept

/-! ## When the purge is enough -/

variable (users) in
/-- A numeric user that the purge does not recognise resolves, in every fragment with a policy
that it does recognise. -/
def Host.Legible (h : Host) : Prop :=
  ∀ (n : SiloName) (c : Content) (uids : List ℕ), h.fragment n = some c →
    policyUids u c = some uids → uids ≠ [] → ∀ v ∈ users c, v ∈ uids ∨ h.uidExists v = true

variable (users) in
/-- The purge lists the directory and can read it, or there is nothing to purge. -/
def World.PurgeSuffices (s : World) : Prop :=
  s.next .listdir = .ok ∧ s.host.Legible u users ∨ s.host.Resolved users

theorem Purged.resolved {s : World} {acc : List SiloName × List SiloName} (h : Purged u s acc w)
    (hs : s.PurgeSuffices u users) (hacc : acc.2 = []) :
    w.host.Resolved users := by
  intro m c hc v hv
  have hexists : s.host.uidExists v = true → w.host.uidExists v = true := by
    intro hv
    rw [Host.uidExists, h.accounts]
    exact hv
  rcases hs with ⟨hok, hlegible⟩ | hresolved
  · obtain ⟨-, c', uids, hfrag, hread, hne, hall⟩ := h.kept hok hacc m c hc
    rw [h.shrinks m c hc] at hfrag
    obtain rfl := Option.some.inj hfrag
    rcases hlegible m c uids (h.shrinks m c hc) hread hne v hv with hmem | hknown
    · exact hexists (hall v hmem)
    · exact hexists hknown
  · exact hexists (hresolved m c (h.shrinks m c hc) v hv)

/-- The outcomes that a condition speaks of. -/
def World.masked (keep : List Op) (w : World) : World :=
  { w with pending := fun o => if o ∈ keep then w.pending o else [] }

/-- The outcomes that decide the order of effects. -/
def critical : List Op := [.listdir, .placeFragment, .reload, .userdel]

theorem masked_consume {keep : List Op} (h : op ∉ keep) (w : World) :
    (w.consume op).masked keep = w.masked keep := by
  have hpending : ((w.consume op).masked keep).pending = (w.masked keep).pending := by
    funext o
    by_cases ho : o ∈ keep
    · have hne : o ≠ op := by
        rintro rfl
        exact h ho
      simp only [masked, consume, if_pos ho, if_neg hne]
    · simp only [masked, if_neg ho]
  unfold masked at hpending ⊢
  simp only [consume] at hpending ⊢
  rw [hpending]

/-- What the purge leaves alone. -/
def World.unpurged (w : World) : World :=
  { w.masked [.placeFragment, .reload, .userdel] with host := { w.host with files := ∅ } }

theorem log_of_unpurged {s : World} (h : w.unpurged = s.unpurged) : w.log = s.log := by
  have hlog := congrArg log h
  exact hlog

theorem next_of_unpurged {s : World} (h : w.unpurged = s.unpurged)
    (hop : op ∈ [Op.placeFragment, .reload, .userdel]) : w.next op = s.next op := by
  have hpending := congrFun (congrArg pending h) op
  simp only [unpurged, masked, if_pos hop] at hpending
  rw [next, next, hpending]

theorem purge_spec (s : World) :
    Triple (fun w => w = s) (purgeUnsafeRelayFragments u)
      (fun acc w => Purged u s acc w ∧ w.unpurged = s.unpurged) (fun _ _ => False) := by
  have hkeep : Preserves unpurged (purgeUnsafeRelayFragments u) := by
    refine purge_preserves (fun op hop w => ?_) (fun w n => rfl) u
    have hnot : op ∉ [Op.placeFragment, .reload, .userdel] := by
      revert op
      decide
    unfold unpurged
    rw [masked_consume hnot]
    rfl
  refine (hkeep.frame (fun v => v = s.unpurged) (purge_host u s)).conseq (fun w hw => ⟨hw, ?_⟩)
    (fun _ _ h => h) fun _ _ h => h.1
  rw [hw]

/-! ## The effects of a call -/

variable (users) in
/-- Every effect so far was safe, and a reload would be. -/
def World.Clear (w : World) : Prop := w.LogSafe users ∧ w.host.Resolved users

theorem perform_triple {α : Type} {effect : World → World} {answer : World → α} {P : World → Prop}
    {Q : α → World → Prop} {E : SiloError → World → Prop}
    (hok : ∀ w, P w → w.next op = .ok → Q (answer w) (effect (w.consume op)))
    (hrefuse : ∀ w msg, P w → w.next op = .refuse msg → E (.os msg) (w.consume op))
    (hlose : ∀ w msg, P w → w.next op = .lose msg → E (.os msg) (effect (w.consume op))) :
    Triple P (perform op effect answer) Q E := by
  intro w hw
  unfold perform
  rcases hnext : w.next op with _ | msg | msg
  · exact hok w hw hnext
  · exact hrefuse w msg hw hnext
  · exact hlose w msg hw hnext

/-- The host and the log. -/
def World.visible (w : World) : Host × List Effect := (w.host, w.log)

theorem attempt_visible (op : Op) : Preserves visible (attempt op) :=
  attempt_preserves fun _ => rfl

theorem keeps_visible {α : Type} {x : Tx α} (hx : Preserves visible x)
    (R : Host → List Effect → Prop) :
    Triple (fun w => R w.host w.log) x (fun _ w => R w.host w.log) (fun _ w => R w.host w.log) :=
  hx.triple fun v => R v.1 v.2

theorem attempt_clear (op : Op) :
    Triple (World.Clear users) (attempt op) (fun _ => World.Clear users)
      (fun _ => World.Clear users) :=
  keeps_visible (attempt_visible op) fun h log => (∀ e ∈ log, e.Safe users) ∧ h.Resolved users

theorem attempt_logSafe (op : Op) :
    Triple (World.LogSafe users) (attempt op) (fun _ => World.LogSafe users)
      (fun _ => World.LogSafe users) :=
  keeps_visible (attempt_visible op) fun _ log => ∀ e ∈ log, e.Safe users

theorem reloadIf_clear (wanted : Bool) :
    Triple (World.Clear users) (reloadIf wanted) (fun _ => World.Clear users)
      (fun _ => World.Clear users) := by
  refine .ite (fun _ => ?_) fun _ => .pure fun _ h => h
  refine .bind (Q := fun _ => World.Clear users) (.modify fun w hw => ?_)
    fun _ => attempt_clear .reload
  exact ⟨hw.1.record hw.2, hw.2⟩

theorem reloadIf_host (wanted : Bool) : Preserves host (reloadIf wanted) :=
  Preserves.ite (.bind (fun _ => rfl) fun _ => attempt_preserves fun _ => rfl)
    Preserves.pure

theorem removeRelayPolicy_clear (n : SiloName) :
    Triple (World.Clear users) (removeRelayPolicy n true)
      (fun _ w => w.Clear users ∧ w.host.fragment n = none) (fun _ => World.Clear users) := by
  have hask : Preserves visible (MonadExcept.tryCatch
      (ask .pathExists fun w => (w.host.fragment n).isSome) fun _ => pure false) :=
    Preserves.tryCatch (ask_preserves fun _ => rfl) fun _ => .pure
  refine .bind (keeps_visible hask
    fun h log => (∀ e ∈ log, e.Safe users) ∧ h.Resolved users) fun existed => ?_
  refine .bind (Q := fun _ w => w.Clear users ∧ w.host.fragment n = none)
    (perform_triple (fun w hw _ => ?_) (fun w _ hw _ => hw) fun w _ hw _ => ?_) fun _ => ?_
  · exact ⟨⟨hw.1, hw.2.unlink n⟩, Host.fragment_unlink_self _ _⟩
  · exact ⟨hw.1, hw.2.unlink n⟩
  · exact ((reloadIf_host _).frame (fun h => h.fragment n = none) (reloadIf_clear _)).conseq
      (fun _ h => h) (fun _ _ h => h) fun _ _ h => h.1

theorem validateUid_bounds {uid : ℕ} {P : World → Prop} :
    Triple P (validateUid uid) (fun _ w => P w ∧ 2000 ≤ uid ∧ uid ≤ 60000) (fun _ => P) := by
  refine .ite (fun _ => .throw fun _ h => h) fun hbounds => .pure fun w hw => ?_
  refine ⟨hw, ?_, ?_⟩ <;> omega

theorem writeRelayPolicy_safe (hxml : Host.ReadsGenerated users) (n : SiloName) (uid : ℕ)
    (reload : Bool) {P : Host → Prop}
    (hP : ∀ h, P h → h.uidExists uid = true → h.Resolved users) :
    Triple (fun w => w.LogSafe users ∧ P w.host) (writeRelayPolicy u n uid reload)
      (fun _ => World.Clear users)
      (fun _ w => w.LogSafe users ∧ (P w.host ∨ w.host.Resolved users)) := by
  have hask : Triple (fun w => w.LogSafe users ∧ P w.host)
      (ask .getpwuid fun w => w.host.uidExists uid)
      (fun known w => (w.LogSafe users ∧ P w.host) ∧ known = w.host.uidExists uid)
      (fun _ w => w.LogSafe users ∧ (P w.host ∨ w.host.Resolved users)) :=
    perform_triple (fun w hw _ => ⟨hw, rfl⟩) (fun w _ hw _ => ⟨hw.1, .inl hw.2⟩)
      fun w _ hw _ => ⟨hw.1, .inl hw.2⟩
  refine .bind hask fun known => ?_
  refine .ite (fun hknown => ?_) fun _ => .throw fun w hw => ⟨hw.1.1, .inl hw.1.2⟩
  refine .bind (validateUid_bounds.conseq (fun _ h => h) (fun _ _ h => h)
    fun _ w hw => ⟨hw.1.1, .inl hw.1.2⟩) fun _ => ?_
  refine .bind (Q := fun _ => World.Clear users)
    (perform_triple (fun w hw _ => ?_) (fun w _ hw _ => ⟨hw.1.1.1, .inl hw.1.1.2⟩)
      fun w _ hw _ => ?_) fun _ => ?_
  · have hplaced := (hP _ hw.1.1.2 (hw.1.2 ▸ hknown)).place hxml n hw.2.1 hw.2.2 (hw.1.2 ▸ hknown)
    exact ⟨World.LogSafe.record (w := w) hw.1.1.1 hplaced, hplaced⟩
  · have hplaced := (hP _ hw.1.1.2 (hw.1.2 ▸ hknown)).place hxml n hw.2.1 hw.2.2 (hw.1.2 ▸ hknown)
    exact ⟨World.LogSafe.record (w := w) hw.1.1.1 hplaced, .inr hplaced⟩
  · exact (reloadIf_clear reload).conseq (fun _ h => h) (fun _ _ h => h)
      fun _ _ h => ⟨h.1, .inr h.2⟩

/-! ## Create -/

variable (users) in
/-- A new silo can be granted its bus name: a write that fails leaves no fragment. -/
structure World.Granting (n : SiloName) (w : World) : Prop where
  clear : w.Clear users
  absent : w.host.fragment n = none
  placed : ∀ msg, w.next .placeFragment ≠ .lose msg
  loaded : w.next .reload = .ok

theorem writeRelayPolicy_granting (hxml : Host.ReadsGenerated users) (n : SiloName) (uid : ℕ) :
    Triple (World.Granting users n) (writeRelayPolicy u n uid true) (fun _ => World.Clear users)
      (fun _ w => w.LogSafe users ∧ w.host.fragment n = none) := by
  have hraise : ∀ w, World.Granting users n w → w.LogSafe users ∧ w.host.fragment n = none :=
    fun w hw => ⟨hw.clear.1, hw.absent⟩
  have hask : Triple (World.Granting users n) (ask .getpwuid fun w => w.host.uidExists uid)
      (fun known w => w.Granting users n ∧ known = w.host.uidExists uid)
      (fun _ w => w.LogSafe users ∧ w.host.fragment n = none) :=
    perform_triple (fun w hw _ => ⟨⟨hw.clear, hw.absent, hw.placed, hw.loaded⟩, rfl⟩)
      (fun w _ hw _ => hraise w hw) fun w _ hw _ => hraise w hw
  refine .bind hask fun known => ?_
  refine .ite (fun hknown => ?_) fun _ => .throw fun w hw => hraise w hw.1
  refine .bind (validateUid_bounds.conseq (fun _ h => h) (fun _ _ h => h)
    fun _ w hw => hraise w hw.1) fun _ => ?_
  refine .bind (Q := fun _ w => w.Clear users ∧ w.next .reload = .ok)
    (perform_triple (fun w hw _ => ?_) (fun w _ hw _ => hraise w hw.1.1)
      fun w msg hw hlose => absurd hlose (hw.1.1.placed msg)) fun _ => ?_
  · have hplaced := hw.1.1.clear.2.place hxml n hw.2.1 hw.2.2 (hw.1.2 ▸ hknown)
    exact ⟨⟨World.LogSafe.record (w := w) hw.1.1.clear.1 hplaced, hplaced⟩, hw.1.1.loaded⟩
  · refine .bind (Q := fun _ w => w.Clear users ∧ w.next .reload = .ok)
      (.modify fun w hw => ⟨⟨hw.1.1.record hw.1.2, hw.1.2⟩, hw.2⟩) fun _ => ?_
    refine perform_triple (fun w hw _ => hw.1) (fun w msg hw h => ?_) fun w msg hw h => ?_
    · rw [hw.2] at h
      cases h
    · rw [hw.2] at h
      cases h

theorem userdel_safe (n : SiloName) (kind : Kind) :
    Triple (fun w => w.LogSafe users ∧ w.host.fragment n = none) (userdel n kind)
      (fun _ => World.LogSafe users) (fun _ => World.LogSafe users) := by
  refine .bind (Q := fun _ => World.LogSafe users) (.modify fun w hw => ?_) fun _ => ?_
  · exact hw.1.record hw.2
  · exact perform_triple (fun w hw _ => hw) (fun w _ hw _ => hw) fun w _ hw _ => hw

theorem rolledBack_safe (n : SiloName) (msg : String) {Q : Unit → World → Prop} :
    Triple (World.Clear users) (rolledBack u n msg) Q (fun _ => World.LogSafe users) := by
  refine .bind (Q := fun _ => World.LogSafe users) ?_ fun _ => .throw fun _ h => h
  refine .bind (undo_accounts _ (attempt_clear _)) fun dir => ?_
  refine .bind (undo_accounts _ (attempt_clear _)) fun link => ?_
  have hrevoke : ∀ leftover, Triple (World.Clear users) (undo (removeRelayPolicy n true) leftover)
      (fun kept w => w.LogSafe users ∧ (kept = [] → w.host.fragment n = none))
      (fun _ => World.LogSafe users) := by
    intro leftover
    refine .tryCatch (.bind (removeRelayPolicy_clear n) fun _ =>
      Triple.pure fun w hw => ⟨hw.1.1, fun _ => hw.2⟩) fun _ => ?_
    exact .pure fun w hw => ⟨hw.1, fun h => by cases h⟩
  refine .bind (hrevoke _) fun kept => ?_
  refine .ite (fun hkept => ?_) fun _ => .pure fun w hw => hw.1
  refine .bind (undo_accounts _ ((userdel_safe n .tier3User).weaken
    fun w hw => ⟨hw.1, hw.2 hkept⟩)) fun user => ?_
  exact .pure fun w hw => hw

theorem issueGrant_safe (hxml : Host.ReadsGenerated users) (n : SiloName) (uid : ℕ) :
    Triple (World.Granting users n) (issueGrant u n uid) (fun _ => World.Clear users)
      (fun _ => World.LogSafe users) := by
  refine .tryCatch (writeRelayPolicy_granting u hxml n uid) fun e => ?_
  refine .bind (Q := fun _ => World.LogSafe users) ?_ fun _ => .throw fun _ h => h
  exact .tryCatch (userdel_safe n .tier3User) fun _ => .pure fun _ h => h

theorem commitRow_visible (n : SiloName) (row : Row) : Preserves visible (commitRow n row) :=
  Preserves.bind (fun _ => rfl) fun _ => .tryCatch (attempt_visible .save) fun _ =>
    Preserves.bind (fun _ => rfl) fun _ => .throw

theorem finishProvisioning_safe (n : SiloName) (uid : ℕ) :
    Triple (World.Clear users) (finishProvisioning u n uid) (fun _ => World.LogSafe users)
      (fun _ => World.LogSafe users) := by
  refine .tryCatch (E := fun _ => World.Clear users) ?_ fun e => rolledBack_safe u n _
  refine .bind (attempt_clear _) fun _ => ?_
  exact (keeps_visible (commitRow_visible n _)
    fun h log => (∀ e ∈ log, e.Safe users) ∧ h.Resolved users).conseq (fun _ h => h)
    (fun _ _ h => h.1) fun _ _ h => h

variable (users) in
/-- What a create of a tier3-user silo needs to be safe. -/
structure World.Grants (n : SiloName) (w : World) : Prop where
  purge : w.next .listdir = .ok ∧ w.host.Legible u users ∨
    w.host.Resolved users ∧ w.host.fragment n = none
  placed : ∀ msg, w.next .placeFragment ≠ .lose msg
  loaded : w.next .reload = .ok

theorem refuseTaken_safe (n : SiloName) (uid : ℕ) :
    Triple (fun w => w.LogSafe users ∧ w.Grants u users n) (refuseTaken u n uid)
      (fun _ w => (w.LogSafe users ∧ w.Grants u users n) ∧ w.rows.get? n = none)
      (fun _ => World.LogSafe users) := by
  refine .get_bind fun s hs => ?_
  refine .ite (fun _ => .throw fun t ht => by rw [ht]; exact hs.1) fun hnone => ?_
  have hrow : s.rows.get? n = none := by simpa using hnone
  split
  · exact .throw fun t ht => by rw [ht]; exact hs.1
  · have hkeep : ∀ {α : Type} {op : Op} {answer : World → α}, op ∉ critical →
        Triple (fun w => (w.LogSafe users ∧ w.Grants u users n) ∧ w.rows.get? n = none)
          (ask op answer)
          (fun _ w => (w.LogSafe users ∧ w.Grants u users n) ∧ w.rows.get? n = none)
          (fun _ => World.LogSafe users) := by
      intro α op answer hop
      have hmask : Preserves (masked critical) (ask op answer) :=
        ask_preserves fun w => masked_consume hop w
      refine (hmask.triple fun v => (v.LogSafe users ∧ v.Grants u users n) ∧
        v.rows.get? n = none).conseq (fun w hw => ?_) (fun _ w hw => ?_) fun _ w hw => hw.1.1
      · exact ⟨⟨hw.1.1, hw.1.2.purge, hw.1.2.placed, hw.1.2.loaded⟩, hw.2⟩
      · exact ⟨⟨hw.1.1, hw.1.2.purge, hw.1.2.placed, hw.1.2.loaded⟩, hw.2⟩
    refine .bind ((hkeep (by decide)).weaken fun t ht => ?_) fun user => ?_
    · rw [ht]
      exact ⟨hs, hrow⟩
    refine .ite (fun _ => .throw fun w hw => hw.1.1) fun _ => ?_
    refine .bind (hkeep (by decide)) fun known => ?_
    exact .ite (fun _ => .throw fun w hw => hw.1.1) fun _ => .pure fun w hw => hw

theorem createTier3User_safe (hxml : Host.ReadsGenerated users) (n : SiloName) (uid : ℕ) :
    Triple (fun w => w.LogSafe users ∧ w.Grants u users n) (createTier3User u n uid)
      (fun _ => World.LogSafe users) (fun _ => World.LogSafe users) := by
  refine .bind (refuseTaken_safe u n uid) fun _ => ?_
  refine .bind (Q := fun acc w => w.LogSafe users ∧ (acc.2 = [] → w.Granting users n))
    (.of_forall fun s hs => ?_) fun purged => ?_
  · obtain ⟨⟨hlog, hgrants⟩, hrow⟩ := hs
    refine (purge_spec u s).conseq (fun _ h => h) (fun acc w hw => ?_) fun _ _ h => h.elim
    obtain ⟨hpurged, hkeep⟩ := hw
    have hsafe : w.LogSafe users := fun e he => hlog e (log_of_unpurged hkeep ▸ he)
    refine ⟨hsafe, fun hacc => ⟨⟨hsafe, ?_⟩, ?_, ?_, ?_⟩⟩
    · exact hpurged.resolved u (hgrants.purge.imp (fun h => h) fun h => h.1) hacc
    · rcases hfrag : w.host.fragment n with _ | c
      · rfl
      · -- a fragment of a silo that is not in the table would have been purged
        rcases hgrants.purge with ⟨hok, -⟩ | ⟨-, habsent⟩
        · have hwant := (hpurged.kept hok hacc n c hfrag).1
          rw [want, hrow] at hwant
          cases hwant
        · rw [hpurged.shrinks n c hfrag] at habsent
          cases habsent
    · rw [next_of_unpurged hkeep (by decide)]
      exact hgrants.placed
    · rw [next_of_unpurged hkeep (by decide)]
      exact hgrants.loaded
  refine .ite (fun hacc => ?_) fun _ => .throw fun w hw => hw.1
  refine .bind (Q := fun _ => World.Granting users n)
    (perform_triple (fun w hw _ => ?_) (fun w _ hw _ => hw.1) fun w _ hw _ => hw.1) fun _ => ?_
  · have hg := hw.2 hacc
    exact ⟨⟨hg.clear.1, hg.clear.2.addUser n.val uid⟩, hg.absent, hg.placed, hg.loaded⟩
  refine .bind (Q := fun _ => World.Granting users n) ?_ fun _ => ?_
  · refine .tryCatch (E := fun _ => World.Granting users n) ?_ fun _ =>
      Triple.pure fun _ h => h
    refine perform_triple (fun w hg _ => ?_) (fun w _ hg _ => ?_) fun w _ hg _ => ?_
    all_goals exact ⟨hg.clear, hg.absent, hg.placed, hg.loaded⟩
  refine .bind (issueGrant_safe u hxml n uid) fun _ => ?_
  refine .bind (Q := fun _ => World.Clear users) ?_ fun _ => finishProvisioning_safe u n uid
  exact .tryCatch (attempt_clear _) fun e => rolledBack_safe u n _

/-! ## Delete -/

/-- The accounts and how `userdel` ends. -/
def World.removal (w : World) : List (String × ℕ) × List Outcome :=
  (w.host.accounts, w.pending .userdel)

/-- A `userdel` that raises after it removed the account of a tier3-user silo leaves no other uid
than the silo's unresolved. -/
def Removable (n : SiloName) (row : Row) (r : List (String × ℕ) × List Outcome) : Prop :=
  row.kind = .tier3User → (∃ msg, r.2.headD .ok = .lose msg) →
    ∀ v, (n.val, v) ∈ r.1 → v = row.uid

theorem attempt_removal (hop : op ≠ .userdel) : Preserves removal (attempt op) := by
  refine attempt_preserves fun w => ?_
  simp only [removal, consume, if_neg hop.symm]

theorem reloadIf_removal (wanted : Bool) : Preserves removal (reloadIf wanted) :=
  Preserves.ite (.bind (fun _ => rfl) fun _ => attempt_removal (by decide)) Preserves.pure

theorem removeRelayPolicy_removal (n : SiloName) :
    Preserves removal (removeRelayPolicy n true) := by
  refine .bind (.tryCatch (ask_preserves fun _ => rfl)
    fun _ => .pure) fun existed => ?_
  refine .bind (perform_preserves (fun _ => rfl) fun _ => rfl) fun _ => ?_
  exact reloadIf_removal _

theorem tearDown_safe (n : SiloName) (row : Row) :
    Triple (fun w => w.Clear users ∧ Removable n row w.removal) (tearDown n row)
      (fun _ => World.LogSafe users)
      (fun _ w => w.LogSafe users ∧
        (row.kind = .tier3User → w.host.ResolvedExcept users row.uid)) := by
  have hraise : ∀ w, (World.Clear users w ∧ Removable n row w.removal) → w.LogSafe users ∧
      (row.kind = .tier3User → w.host.ResolvedExcept users row.uid) :=
    fun w hw => ⟨hw.1.1, fun _ => hw.1.2.except _⟩
  have hattempt : ∀ op, op ≠ .userdel → Triple
      (fun w => w.Clear users ∧ Removable n row w.removal) (attempt op)
      (fun _ w => w.Clear users ∧ Removable n row w.removal)
      (fun _ w => w.LogSafe users ∧
        (row.kind = .tier3User → w.host.ResolvedExcept users row.uid)) :=
    fun op hop => ((attempt_removal hop).frame (Removable n row) (attempt_clear op)).conseq
      (fun _ h => h) (fun _ _ h => h) fun _ w hw => hraise w hw
  refine .bind (hattempt _ (by decide)) fun _ => ?_
  refine .bind (hattempt _ (by decide)) fun _ => ?_
  refine .bind (((removeRelayPolicy_removal n).frame (Removable n row)
    (removeRelayPolicy_clear n)).conseq (fun _ h => h) (fun _ _ h => h)
    fun _ w hw => hraise w hw) fun _ => ?_
  have hlink : Preserves (fun w => (w.visible, w.removal)) (unlinkLauncher row.kind) :=
    Preserves.ite (attempt_preserves fun _ => rfl) Preserves.pure
  refine .bind ((hlink.triple fun v => (((∀ e ∈ v.1.2, e.Safe users) ∧
    v.1.1.Resolved users) ∧ v.1.1.fragment n = none) ∧ Removable n row v.2).conseq
    (fun _ h => h) (fun _ _ h => h) fun _ w hw => hraise w ⟨hw.1.1, hw.2⟩) fun _ => ?_
  -- the grant is gone, so that the account may go
  refine .bind (Q := fun _ w => w.Clear users ∧ Removable n row w.removal)
    (.modify fun w hw => ⟨⟨World.LogSafe.record (w := w) hw.1.1.1 hw.1.2, hw.1.1.2⟩, hw.2⟩)
    fun _ => ?_
  refine perform_triple (fun w hw _ => hw.1.1) (fun w _ hw _ => hraise w hw) fun w msg hw hlose => ?_
  exact ⟨hw.1.1, fun hkind => hw.1.2.delUser (hw.2 hkind ⟨msg, hlose⟩)⟩

theorem restore_safe (hxml : Host.ReadsGenerated users) (n : SiloName) (row : Row)
    (e : SiloError) {Q : Unit → World → Prop} :
    Triple (fun w => w.LogSafe users ∧
        (row.kind = .tier3User → w.host.ResolvedExcept users row.uid))
      (restore u n row e) Q (fun _ => World.LogSafe users) := by
  refine .bind (Q := fun _ => World.LogSafe users) ?_ fun _ => ?_
  · refine .ite (fun hkind => ?_) fun _ => .pure fun w hw => hw.1
    refine .bind (Q := fun _ => World.LogSafe users) ?_ fun _ =>
      Triple.tryCatch (attempt_logSafe _) fun _ => .pure fun _ h => h
    refine .tryCatch (((writeRelayPolicy_safe u hxml n row.uid true
      (P := fun h => h.ResolvedExcept users row.uid) fun h hr => hr.resolved).weaken
      fun w hw => ⟨hw.1, hw.2 hkind⟩).conseq (fun _ h => h) (fun _ w hw => hw.1)
      fun _ _ h => h) fun _ => ?_
    exact .pure fun w hw => hw.1
  · refine .bind (Q := fun _ => World.LogSafe users) ?_ fun _ => .throw fun _ h => h
    exact .bind (.modify fun w hw => hw) fun _ => attempt_logSafe .save

variable (users) in
/-- What a delete needs to be safe: the purge is enough, and a `userdel` that raises after it
removed the account removed one with the silo's uid. -/
def World.Revokes (n : SiloName) (w : World) : Prop :=
  ∀ row, w.rows.get? n = some row →
    w.PurgeSuffices u users ∧ Removable n row w.removal

theorem deletableRow_safe (n : SiloName) :
    Triple (fun w => w.LogSafe users ∧ w.Revokes u users n) (deletableRow u n)
      (fun row w => w.LogSafe users ∧ w.PurgeSuffices u users ∧ Removable n row w.removal)
      (fun _ => World.LogSafe users) := by
  refine .bind (Q := fun row w => w.LogSafe users ∧ w.PurgeSuffices u users ∧
    Removable n row w.removal) ?_ fun row => ?_
  · refine .get_bind fun s hs => ?_
    split
    next row hget =>
      refine .pure fun t ht => ?_
      rw [ht]
      exact ⟨hs.1, hs.2 row hget⟩
    next => exact .throw fun t ht => by rw [ht]; exact hs.1
  · refine .bind (Q := fun _ w => w.LogSafe users ∧ w.PurgeSuffices u users ∧
      Removable n row w.removal) ?_ fun _ => .pure fun _ h => h
    unfold refuseUnlessDeletable
    cases row.state with
    | created => exact .pure fun _ h => h
    | stopped => exact .pure fun _ h => h
    | active => exact .throw fun _ h => h.1
    | frozen => exact .throw fun _ h => h.1
    | stopping => exact .throw fun _ h => h.1
    | deleting => exact .throw fun _ h => h.1

theorem purgeForDelete_safe (n : SiloName) (row : Row) :
    Triple (fun w => w.LogSafe users ∧ w.PurgeSuffices u users ∧ Removable n row w.removal)
      (purgeForDelete u n) (fun _ w => w.Clear users ∧ Removable n row w.removal)
      (fun _ => World.LogSafe users) := by
  refine .bind (Q := fun acc w => w.LogSafe users ∧ (acc.2 = [] → w.Clear users) ∧
    Removable n row w.removal) (.of_forall fun s hs => ?_) fun purged => ?_
  · obtain ⟨hlog, hsuffices, hremovable⟩ := hs
    refine (purge_spec u s).conseq (fun _ h => h) (fun acc w hw => ?_) fun _ _ h => h.elim
    obtain ⟨hpurged, hkeep⟩ := hw
    have hsafe : w.LogSafe users := fun e he => hlog e (log_of_unpurged hkeep ▸ he)
    refine ⟨hsafe, fun hacc => ⟨hsafe, hpurged.resolved u hsuffices hacc⟩, ?_⟩
    intro hkind hlose v hv
    refine hremovable hkind ?_ v ?_
    · obtain ⟨msg, hmsg⟩ := hlose
      exact ⟨msg, (next_of_unpurged hkeep (by decide)).symm.trans hmsg⟩
    · rw [removal, hpurged.accounts] at hv
      exact hv
  refine .ite (fun hacc => ?_) fun _ => .throw fun w hw => hw.1
  exact ((reloadIf_removal _).frame (Removable n row) (reloadIf_clear _)).conseq
    (fun w hw => ⟨hw.2.1 hacc, hw.2.2⟩) (fun _ _ h => h) fun _ _ h => h.1.1

theorem deleteSilo_safe (hxml : Host.ReadsGenerated users) (n : SiloName) :
    Triple (fun w => w.LogSafe users ∧ w.Revokes u users n) (deleteSilo u n)
      (fun _ => World.LogSafe users) (fun _ => World.LogSafe users) := by
  refine .bind (deletableRow_safe u n) fun row => ?_
  refine .bind (purgeForDelete_safe u n row) fun _ => ?_
  have hmove : Preserves (fun w => (w.visible, w.removal)) (transition u n row .deleting) := by
    refine .ite ?_ Preserves.throw
    refine .bind (fun _ => rfl) fun _ => ?_
    refine .tryCatch (attempt_preserves fun _ => rfl) fun _ => ?_
    exact .bind (fun _ => rfl) fun _ => .throw
  refine .bind ((hmove.triple fun v => ((∀ e ∈ v.1.2, e.Safe users) ∧
    v.1.1.Resolved users) ∧ Removable n row v.2).conseq (fun _ h => h) (fun _ _ h => h)
    fun _ _ h => h.1.1) fun _ => ?_
  refine .bind (Q := fun _ => World.LogSafe users) ?_ fun _ => ?_
  · exact .tryCatch (tearDown_safe n row) fun e => restore_safe u hxml n row e
  · exact .bind (.modify fun w hw => hw) fun _ => attempt_logSafe .save

/-! ## Reconcile -/

theorem needsGrant_clear (found : List SiloName) (n : SiloName) (uid : ℕ) :
    Triple (World.Clear users) (needsGrant found n uid) (fun _ => World.Clear users)
      (fun _ => World.Clear users) := by
  have hkeep : Preserves visible (needsGrant found n uid) := by
    refine .ite (.tryCatch ?_ fun _ => .pure)
      (.tryCatch (ask_preserves fun _ => rfl) fun _ => .pure)
    exact .bind (relayPolicyMatches_preserves (fun _ => rfl) n uid)
      fun _ => .pure
  exact keeps_visible hkeep fun h log => (∀ e ∈ log, e.Safe users) ∧ h.Resolved users

theorem reconcile_safe (hxml : Host.ReadsGenerated users) :
    Triple (fun w => w.LogSafe users ∧ w.PurgeSuffices u users) (reconcileRelayPolicies u)
      (fun _ => World.LogSafe users) (fun _ => World.LogSafe users) := by
  refine .bind (Q := fun acc w => w.LogSafe users ∧ (acc.2 = [] → w.Clear users))
    (.of_forall fun s hs => ?_) fun purged => ?_
  · refine (purge_spec u s).conseq (fun _ h => h) (fun acc w hw => ?_) fun _ _ h => h.elim
    have hsafe : w.LogSafe users := by
      intro e he
      rw [log_of_unpurged hw.2] at he
      exact hs.1 e he
    exact ⟨hsafe, fun hacc => ⟨hsafe, hw.1.resolved u hs.2 hacc⟩⟩
  refine .ite (fun hacc => ?_) fun _ => .pure fun w hw => hw.1
  refine .get_bind fun s hs => ?_
  have hlist : Preserves visible listRelayPolicies :=
    Preserves.tryCatch (ask_preserves fun _ => rfl) fun _ => .pure
  refine .bind (Q := fun _ => World.Clear users) ?_ fun found => ?_
  · refine ((keeps_visible hlist fun h log => (∀ e ∈ log, e.Safe users) ∧
      h.Resolved users).weaken fun t ht => ?_).conseq (fun _ h => h) (fun _ _ h => h)
      fun _ _ h => h.1
    rw [ht]
    exact hs.2 hacc
  -- every write keeps the directory clear, for the next one and for the reload
  refine Triple.bind (Q := fun _ => World.Clear users) ?_ fun issued => ?_
  · refine (Triple.foldlM (I := fun _ _ => World.Clear users)
      (E := fun _ => World.Clear users) (fun before e after issued _ => ?_) []).conseq
      (fun _ h => h) (fun _ _ h => h) fun _ _ h => h.1
    refine Triple.bind (needsGrant_clear found e.1 e.2) fun needed => ?_
    refine Triple.ite (fun _ => ?_) fun _ => Triple.pure fun _ h => h
    refine Triple.tryCatch (Triple.bind (writeRelayPolicy_safe u hxml e.1 e.2 false
      (P := fun h => h.Resolved users) fun h hr _ => hr) fun _ => .pure fun _ h => h)
      fun _ => .pure fun w hw => ⟨hw.1, hw.2.elim (fun h => h) fun h => h⟩
  · refine .bind ((reloadIf_clear _).conseq (fun _ h => h) (fun _ _ h => h)
      fun _ _ h => h.1) fun _ => ?_
    exact .pure fun w hw => hw.1

/-! ## Runs -/

variable (users) in
/-- What a step needs to be safe. -/
def Guarded (w : World) : Event → Prop
  | .others _ _ => True
  | .call (.create r) outcomes =>
    r.kind = .tier3User → ∀ h : validName r.name = true,
      World.Grants u users ⟨r.name, h⟩ { w with pending := outcomes }
  | .call (.delete name) outcomes =>
    ∀ h : validName name = true, World.Revokes u users ⟨name, h⟩ { w with pending := outcomes }
  | .call .reconcile outcomes => World.PurgeSuffices u users { w with pending := outcomes }

theorem create_safe (hxml : Host.ReadsGenerated users) (adminUid : ℕ) (r : CreateRequest) :
    Triple (fun w => w.LogSafe users ∧ (r.kind = .tier3User → ∀ h : validName r.name = true,
        w.Grants u users ⟨r.name, h⟩)) (create u adminUid r)
      (fun _ => World.LogSafe users) (fun _ => World.LogSafe users) := by
  refine .of_forall fun s hs => ?_
  have hlog : ∀ t, t = s → t.LogSafe users := fun t ht => by rw [ht]; exact hs.1
  unfold create
  split
  next h =>
    have hvalid : Triple (fun t => t = s) (validateSiloUid adminUid r.uid r.kind)
        (fun _ t => t = s) (fun _ => World.LogSafe users) := by
      cases r.kind with
      | tier3User => exact .ite (fun _ => .throw hlog) fun _ => .pure fun _ h => h
      | tier2Template =>
        exact .ite (fun _ => .pure fun _ h => h) fun _ => .throw hlog
      | tier3s => exact .ite (fun _ => .pure fun _ h => h) fun _ => .throw hlog
    refine .bind hvalid fun _ => ?_
    split
    · exact .throw hlog
    · refine .ite (fun hkind => ?_) fun _ => ?_
      · refine (createTier3User_safe u hxml ⟨r.name, h⟩ r.uid).weaken fun t ht => ?_
        rw [ht]
        exact ⟨hs.1, hs.2 hkind h⟩
      · refine .get_bind fun t ht => ?_
        refine .ite (fun _ => .throw fun t' ht' => hlog t' (ht'.trans ht)) fun _ => ?_
        refine (keeps_visible (commitRow_visible _ _)
          fun _ log => ∀ e ∈ log, e.Safe users).weaken fun t' ht' => hlog t' (ht'.trans ht)
  next => exact .ite (fun _ => .throw hlog) fun _ => .throw hlog

theorem step_safe (hxml : Host.ReadsGenerated users) (adminUid : ℕ) {e : Event}
    (hguard : Guarded u users w e) (hw : w.LogSafe users) :
    (step u adminUid w e).LogSafe users := by
  have hends : ∀ {α : Type} {r : Except SiloError α × World},
      Ends (fun _ => World.LogSafe users) (fun _ => World.LogSafe users) r → r.2.LogSafe users := by
    intro α r hr
    exact hr.state (fun _ _ h => h) fun _ _ h => h
  cases e with
  | others accounts files => exact hw
  | call c outcomes =>
    cases c with
    | create r => exact hends (create_safe u hxml adminUid r _ ⟨hw, hguard⟩)
    | delete name =>
      show (delete u name { w with pending := outcomes }).2.LogSafe users
      unfold delete
      split
      next h => exact hends (deleteSilo_safe u hxml ⟨name, h⟩ _ ⟨hw, hguard h⟩)
      next => exact hw
    | reconcile =>
      refine hends (Triple.bind (reconcile_safe u hxml) (fun _ => ?_) _ ⟨hw, hguard⟩)
      exact Triple.pure fun _ h => h

/-- **Fragments never name a missing user**, in every run whose steps are guarded: an account is
removed only without its fragment, and whenever the store writes a fragment or reloads the bus
every numeric user in the directory resolves. -/
theorem fragments_resolve (hxml : Host.ReadsGenerated users) (adminUid : ℕ) (w : World)
    (hstart : w.log = []) (events : List Event)
    (hguard : Meets (step u adminUid) (Guarded u users) w events) :
    ∀ e ∈ (run (step u adminUid) w events).log, e.Safe users := by
  have hlog : w.LogSafe users := by
    intro e he
    rw [hstart] at he
    cases he
  exact hguard.invariant (P := World.LogSafe users)
    (fun w e hok hw => step_safe u hxml adminUid hok hw) hlog

end Safety

/-- A bus that reads numeric users in the generated spelling only. -/
def generatedUsers (c : Content) : List ℕ := (policyUids .ascii c).getD []

theorem generatedUsers_readsGenerated : Host.ReadsGenerated generatedUsers := by
  intro n uid hmin hmax v hv
  rw [generatedUsers, policyUids_relayPolicyXml n hmax] at hv
  exact List.mem_singleton.mp hv

theorem legible_generatedUsers (h : Host) : h.Legible .ascii generatedUsers := by
  intro n c uids hc hread hne v hv
  rw [generatedUsers, hread] at hv
  exact .inl hv

/-- The name of a silo. -/
def work : SiloName := ⟨"work", by decide +kernel⟩

/-- A silo is created, its account is removed by hand while its fragment stays, and the silo is
reconciled and deleted. -/
def handRemoved : List Event :=
  [.call (.create ⟨"work", 2001, .tier3User, none⟩) allOk, .others [("root", 0)]
      ⟨[(relayPolicyFilename work, .text (relayPolicyXml work 2001))], List.nodup_singleton _⟩,
    .call .reconcile allOk, .call (.delete "work") allOk]

theorem fragments_resolve_handRemoved :
    Meets (step .ascii 1000) (Guarded .ascii generatedUsers) (World.start [("root", 0)] ∅)
        handRemoved ∧
      ∀ e ∈ (run (step .ascii 1000) (World.start [("root", 0)] ∅) handRemoved).log,
        e.Safe generatedUsers := by
  have hguard : Meets (step .ascii 1000) (Guarded .ascii generatedUsers)
      (World.start [("root", 0)] ∅) handRemoved := by
    refine ⟨fun _ h => ⟨.inl ⟨rfl, legible_generatedUsers _⟩, ?_, rfl⟩, trivial,
      .inl ⟨rfl, legible_generatedUsers _⟩,
      fun h row hrow => ⟨.inl ⟨rfl, legible_generatedUsers _⟩, ?_⟩, trivial⟩
    · intro msg hmsg
      cases hmsg
    · rintro - ⟨msg, hmsg⟩
      cases hmsg
  exact ⟨hguard, fragments_resolve .ascii generatedUsers_readsGenerated 1000 _ rfl _ hguard⟩

/-- Every primitive succeeds, but the reload of the bus cannot be run. -/
def reloadRaises : Op → List Outcome
  | .reload => [.refuse "[Errno 2] No such file or directory: 'systemctl'"]
  | _ => []

/-- Whether an account is removed under its fragment. -/
def Effect.strands : Effect → Bool
  | .userdel n _ host => (host.fragment n).isSome
  | _ => false

/-- The grant of a new silo fails after its fragment is in place: the account is removed and the
fragment stays. -/
theorem grant_failure_strands :
    ∃ e ∈ (run (step .ascii 1000) (World.start [("root", 0)] ∅)
      [.call (.create ⟨"work", 2001, .tier3User, none⟩) reloadRaises]).log,
      ¬ e.Safe generatedUsers := by
  have hany : (run (step .ascii 1000) (World.start [("root", 0)] ∅)
      [.call (.create ⟨"work", 2001, .tier3User, none⟩) reloadRaises]).log.any
      Effect.strands = true := by
    decide +kernel
  obtain ⟨e, he, hstrands⟩ := List.any_eq_true.mp hany
  refine ⟨e, he, fun hsafe => ?_⟩
  cases e with
  | userdel n kind host =>
    rw [Effect.strands, show host.fragment n = none from hsafe] at hstrands
    cases hstrands
  | wrote n host => cases hstrands
  | reloaded host => cases hstrands

end Silo
