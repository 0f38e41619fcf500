/-
# Which accounts are removed

`delete` calls `userdel` with the name of every silo it takes down, also of a silo that never had
an account: an account of the same name that somebody else made is then removed
(`namesake_removed`).  What the store does guarantee is `userdel_own`: as long as every silo that
is deleted is a tier3-user silo whose account still exists, each `userdel` is for an account that
the store's own `useradd` made and that has not been removed since.
-/
import QDistro.SiloAccounts
import QDistro.TransitionSystem

namespace Silo

open EffectRules TransitionSystem

/-! ## What the primitives leave alone -/

section Rules

variable {τ : Type} {f : World → τ}

theorem perform_preserves {α : Type} {op : Op} {effect : World → World} {answer : World → α}
    (hop : ∀ w, f (w.consume op) = f w) (heffect : ∀ w, f (effect w) = f w) :
    Preserves f (perform op effect answer) := by
  intro w
  unfold perform
  cases w.next op with
  | ok => exact (heffect _).trans (hop w)
  | refuse msg => exact hop w
  | lose msg => exact (heffect _).trans (hop w)

theorem ask_preserves {α : Type} {op : Op} {answer : World → α}
    (hop : ∀ w, f (w.consume op) = f w) : Preserves f (ask op answer) :=
  perform_preserves hop fun _ => rfl

theorem attempt_preserves {op : Op} (hop : ∀ w, f (w.consume op) = f w) :
    Preserves f (attempt op) :=
  perform_preserves hop fun _ => rfl

/-- The primitives of the purge. -/
def purgeOps : List Op :=
  [.listdir, .userUidMatches, .readFragment, .uidExists, .pathExists, .unlinkFragment]

variable (hops : ∀ op ∈ purgeOps, ∀ w, f (w.consume op) = f w)
  (hunlink : ∀ w n, f (World.onHost w fun h => h.unlink n) = f w) (u : UnicodeDb)

include hops

theorem readFragment_preserves (n : SiloName) : Preserves f (readFragment n) :=
  Preserves.tryCatch (ask_preserves (hops _ (by decide))) fun _ => .pure

omit hops in
theorem relayPolicyMatches_preserves (hread : ∀ w, f (w.consume .readFragment) = f w)
    (n : SiloName) (uid : ℕ) : Preserves f (relayPolicyMatches n uid) := by
  refine .bind (.tryCatch (ask_preserves hread) fun _ => .pure)
    fun content => ?_
  cases content with
  | none => exact .pure
  | some c =>
    dsimp only
    cases readText c with
    | none => exact .throw
    | some s => exact .pure

theorem relayPolicyUids_preserves (n : SiloName) : Preserves f (relayPolicyUids u n) := by
  refine .bind (readFragment_preserves hops n) fun content => ?_
  cases content with
  | none => exact .pure
  | some c =>
    dsimp only
    cases policyUids u c with
    | none => exact .throw
    | some uids => exact .pure

theorem anyMissing_preserves (uids : List ℕ) : Preserves f (anyMissing uids) := by
  refine .foldlM (fun bad uid => ?_) uids false
  exact .bind (ask_preserves (hops _ (by decide))) fun _ => .pure

theorem fragmentUnsafe_preserves (want : SiloName → Option ℕ) (n : SiloName) :
    Preserves f (fragmentUnsafe u want n) := by
  unfold fragmentUnsafe
  cases want n with
  | none => exact .pure
  | some uid =>
    refine .bind (.tryCatch (ask_preserves (hops _ (by decide)))
      fun _ => .pure) fun holds => ?_
    refine .ite (.tryCatch ?_ fun _ => .pure) Preserves.pure
    refine .bind (relayPolicyUids_preserves hops u n) fun uids => ?_
    rcases uids with _ | ⟨_ | ⟨uid, rest⟩⟩
    · exact .pure
    · exact .pure
    · exact anyMissing_preserves hops (uid :: rest)

include hunlink

theorem purge_preserves : Preserves f (purgeUnsafeRelayFragments u) := by
  refine .bind Preserves.get fun w => ?_
  refine .bind (.tryCatch (ask_preserves (hops _ (by decide)))
    fun _ => .pure) fun found => ?_
  refine .foldlM (fun acc n => ?_) _ _
  refine .bind (fragmentUnsafe_preserves hops u w.want n) fun bad => ?_
  refine .ite (.tryCatch ?_ fun _ => .pure) Preserves.pure
  refine .bind ?_ fun _ => .pure
  refine .bind (.tryCatch (ask_preserves (hops _ (by decide)))
    fun _ => .pure) fun existed => ?_
  refine .bind (perform_preserves (hops _ (by decide)) fun w => hunlink w n) fun _ => ?_
  rw [Bool.and_false]
  exact .pure

end Rules

/-! ## The accounts of the store -/

/-- Whether an effect is a call of `userdel`. -/
def Effect.isRemoval : Effect → Bool
  | .userdel _ _ _ => true
  | _ => false

/-- `userdel` is called for a tier3-user silo whose account the store made and that has not been
removed since. -/
def Effect.Own : Effect → Prop
  | .userdel n kind host => kind = .tier3User ∧ n.val ∈ host.made
  | _ => True

instance : DecidablePred Effect.Own := fun e => by
  cases e <;> unfold Effect.Own <;> infer_instance

/-- What the removal of accounts depends on. -/
structure AccountView where
  accounts : List (String × ℕ)
  made : List String
  rows : PyDict SiloName Row
  removals : List Effect

/-- The part of the world that the removal of accounts depends on. -/
def World.accountView (w : World) : AccountView :=
  ⟨w.host.accounts, w.host.made, w.rows, w.log.filter Effect.isRemoval⟩

/-- An account of the name is one of the store's. -/
def AccountView.Mine (v : AccountView) (n : SiloName) : Prop :=
  (∃ uid, (n.val, uid) ∈ v.accounts) → n.val ∈ v.made

/-- The account of a tier3-user silo is one of the store's, and only such accounts were
removed. -/
structure AccountView.Own (v : AccountView) : Prop where
  rows : ∀ (n : SiloName) (row : Row), v.rows.get? n = some row → row.kind = .tier3User → v.Mine n
  removals : ∀ e ∈ v.removals, e.Own

variable {v : AccountView}

theorem AccountView.Own.insert (h : v.Own) {n : SiloName} {row : Row}
    (hn : row.kind = .tier3User → v.Mine n) : { v with rows := v.rows.insert n row }.Own := by
  refine ⟨fun m r hm hkind => ?_, h.removals⟩
  by_cases hmn : n = m
  · subst hmn
    rw [PyDict.get?_insert_self] at hm
    obtain rfl := Option.some.inj hm
    exact hn hkind
  · rw [PyDict.get?_insert_of_ne _ _ hmn] at hm
    exact h.rows m r hm hkind

theorem AccountView.Own.erase (h : v.Own) (n : SiloName) :
    { v with rows := v.rows.erase n }.Own := by
  refine ⟨fun m r hm hkind => ?_, h.removals⟩
  exact h.rows m r (PyDict.get?_erase_cases hm).2 hkind

theorem AccountView.Own.addUser (h : v.Own) (name : String) (uid : ℕ) :
    { v with accounts := v.accounts ++ [(name, uid)], made := name :: v.made }.Own := by
  refine ⟨fun m r hm hkind => ?_, h.removals⟩
  rintro ⟨x, hx⟩
  rcases List.mem_append.mp hx with hx | hx
  · exact List.mem_cons_of_mem _ (h.rows m r hm hkind ⟨x, hx⟩)
  · rw [List.mem_singleton, Prod.mk.injEq] at hx
    rw [hx.1]
    exact List.mem_cons_self

theorem AccountView.Own.delUser (h : v.Own) (name : String) :
    { v with accounts := v.accounts.filter (fun a => a.1 ≠ name)
             made := v.made.filter (· ≠ name) }.Own := by
  refine ⟨fun m r hm hkind => ?_, h.removals⟩
  rintro ⟨x, hx⟩
  rw [List.mem_filter] at hx
  rw [List.mem_filter]
  exact ⟨h.rows m r hm hkind ⟨x, hx.1⟩, hx.2⟩

/-! ## What the parts of a call do to the accounts -/

/-- The store's accounts are in order, and `R` holds of them. -/
abbrev Owning (R : AccountView → Prop) (w : World) : Prop := w.accountView.Own ∧ R w.accountView

section Parts

variable (u : UnicodeDb)

theorem reloadDbus_accounts : Preserves World.accountView reloadDbus :=
  Preserves.bind (fun _ => rfl) fun _ => attempt_preserves fun _ => rfl

theorem reloadIf_accounts (wanted : Bool) : Preserves World.accountView (reloadIf wanted) :=
  Preserves.ite reloadDbus_accounts Preserves.pure

theorem writeRelayPolicy_accounts (n : SiloName) (uid : ℕ) (reload : Bool) :
    Preserves World.accountView (writeRelayPolicy u n uid reload) := by
  refine .bind (ask_preserves fun _ => rfl) fun known => ?_
  refine .ite ?_ Preserves.throw
  refine .bind (.ite Preserves.throw Preserves.pure) fun _ => ?_
  refine .bind (perform_preserves (fun _ => rfl) fun _ => rfl) fun _ => ?_
  exact reloadIf_accounts _

theorem removeRelayPolicy_accounts (n : SiloName) (reload : Bool) :
    Preserves World.accountView (removeRelayPolicy n reload) := by
  refine .bind (.tryCatch (ask_preserves fun _ => rfl)
    fun _ => .pure) fun existed => ?_
  refine .bind (perform_preserves (fun _ => rfl) fun _ => rfl) fun _ => ?_
  exact reloadIf_accounts _

theorem purge_accounts : Preserves World.accountView (purgeUnsafeRelayFragments u) :=
  purge_preserves (fun _ _ _ => rfl) (fun _ _ => rfl) u

theorem attempt_accounts (op : Op) : Preserves World.accountView (attempt op) :=
  attempt_preserves fun _ => rfl

theorem useradd_accounts (n : SiloName) (uid : ℕ) :
    Triple (Owning fun _ => True) (useradd n.val uid) (fun _ => Owning fun v => n.val ∈ v.made)
      (fun _ => Owning fun _ => True) := by
  intro w hw
  unfold useradd perform
  cases w.next .useradd with
  | ok => exact ⟨hw.1.addUser n.val uid, List.mem_cons_self⟩
  | refuse msg => exact ⟨hw.1, trivial⟩
  | lose msg => exact ⟨hw.1.addUser n.val uid, trivial⟩

theorem userdel_accounts (n : SiloName) :
    Triple (Owning fun v => n.val ∈ v.made) (userdel n .tier3User)
      (fun _ => Owning fun v => v.Mine n) (fun _ => Owning fun v => v.Mine n) := by
  have hlog : Triple (Owning fun v => n.val ∈ v.made)
      (Act.modify fun w => w.record (.userdel n .tier3User w.host))
      (fun _ => Owning fun v => n.val ∈ v.made)
      (fun (_ : SiloError) => Owning fun v => v.Mine n) := by
    refine .modify fun w hw => ⟨⟨hw.1.rows, ?_⟩, hw.2⟩
    intro e he
    rcases List.mem_cons.mp he with rfl | he
    · exact ⟨rfl, hw.2⟩
    · exact hw.1.removals e he
  refine .bind hlog fun _ => ?_
  intro w hw
  have hgone : AccountView.Mine (World.accountView (w.onHost (·.delUser n.val))) n := by
    rintro ⟨x, hx⟩
    exact absurd rfl (of_decide_eq_true (List.mem_filter.mp hx).2)
  unfold perform
  cases w.next .userdel with
  | ok => exact ⟨hw.1.delUser n.val, hgone⟩
  | refuse msg => exact ⟨hw.1, fun _ => hw.2⟩
  | lose msg => exact ⟨hw.1.delUser n.val, hgone⟩

theorem keeps {α : Type} {x : Tx α} (hx : Preserves World.accountView x) (R : AccountView → Prop) :
    Triple (Owning R) x (fun _ => Owning R) (fun _ => Owning R) :=
  hx.triple fun v => v.Own ∧ R v

theorem keeps_bind {α β : Type} {x : Tx α} {g : α → Tx β} {R : AccountView → Prop}
    {Q : β → World → Prop} {E : SiloError → World → Prop} (hx : Preserves World.accountView x)
    (hE : ∀ e w, Owning R w → E e w) (hg : ∀ a, Triple (Owning R) (g a) Q E) :
    Triple (Owning R) (x >>= g) Q E :=
  Triple.bind ((keeps hx R).conseq (fun _ h => h) (fun _ _ h => h) hE) hg

theorem commitRow_accounts (n : SiloName) (row : Row) {R : AccountView → Prop}
    (hR : ∀ v rows, R v → R { v with rows := rows })
    (hrow : ∀ v, v.Own → R v → row.kind = .tier3User → v.Mine n) :
    Triple (Owning R) (commitRow n row) (fun _ => Owning R) (fun _ => Owning R) := by
  have hinsert : Triple (Owning R)
      (Act.modify fun w => { w with rows := w.rows.insert n row })
      (fun _ => Owning R) (fun (_ : SiloError) => Owning R) := by
    refine .modify fun w hw => ⟨hw.1.insert (hrow _ hw.1 hw.2), hR _ _ hw.2⟩
  refine .bind hinsert fun _ => ?_
  refine .tryCatch (keeps (attempt_accounts .save) R) fun e => ?_
  refine .bind (.modify fun w hw => ?_) fun _ => .throw fun _ h => h
  exact ⟨hw.1.erase n, hR _ _ hw.2⟩

theorem undo_accounts {x : Tx Unit} {P Q : World → Prop} (leftover : String)
    (hx : Triple P x (fun _ => Q) (fun _ => Q)) {E : SiloError → World → Prop} :
    Triple P (undo x leftover) (fun _ => Q) E :=
  Triple.tryCatch (.bind hx fun _ => .pure fun _ h => h)
    fun _ => .pure fun _ h => h

theorem rolledBack_accounts (n : SiloName) (msg : String) {Q : Unit → World → Prop} :
    Triple (Owning fun v => n.val ∈ v.made) (rolledBack u n msg) Q
      (fun _ => Owning fun _ => True) := by
  refine .bind (Q := fun _ => Owning fun _ => True) ?_
    fun leftover => .throw fun _ h => h
  refine .bind (undo_accounts _ (keeps (attempt_accounts _) _)) fun dir => ?_
  refine .bind (undo_accounts _ (keeps (attempt_accounts _) _)) fun link => ?_
  refine .bind (undo_accounts _ (keeps (removeRelayPolicy_accounts n true) _)) fun kept => ?_
  refine .ite (fun _ => ?_) fun _ => .pure fun _ h => ⟨h.1, trivial⟩
  refine .bind (undo_accounts _ (userdel_accounts n)) fun user => ?_
  exact .pure fun _ h => ⟨h.1, trivial⟩

theorem issueGrant_accounts (n : SiloName) (uid : ℕ) :
    Triple (Owning fun v => n.val ∈ v.made) (issueGrant u n uid)
      (fun _ => Owning fun v => n.val ∈ v.made) (fun _ => Owning fun _ => True) := by
  refine .tryCatch (keeps (writeRelayPolicy_accounts u n uid true) _) fun e => ?_
  refine .bind (Q := fun _ => Owning fun _ => True) ?_ fun _ => .throw fun _ h => h
  exact .tryCatch ((userdel_accounts n).conseq (fun _ h => h) (fun _ _ h => ⟨h.1, trivial⟩)
    fun _ _ h => h) fun _ => .pure fun _ h => ⟨h.1, trivial⟩

theorem finishProvisioning_accounts (n : SiloName) (uid : ℕ) :
    Triple (Owning fun v => n.val ∈ v.made) (finishProvisioning u n uid)
      (fun _ => Owning fun _ => True) (fun _ => Owning fun _ => True) := by
  refine .tryCatch (E := fun _ => Owning fun v => n.val ∈ v.made) ?_
    fun e => rolledBack_accounts u n _
  refine keeps_bind (attempt_accounts _) (fun _ _ h => h) fun _ => ?_
  refine (commitRow_accounts n _ (fun _ _ h => h) ?_).conseq (fun _ h => h)
    (fun _ _ h => ⟨h.1, trivial⟩) fun _ _ h => h
  exact fun v _ hmade _ _ => hmade

theorem refuseTaken_accounts (n : SiloName) (uid : ℕ) :
    Preserves World.accountView (refuseTaken u n uid) := by
  refine .bind Preserves.get fun w => ?_
  refine .ite Preserves.throw ?_
  split
  · exact .throw
  · refine .bind (ask_preserves fun _ => rfl) fun user => ?_
    refine .ite Preserves.throw ?_
    refine .bind (ask_preserves fun _ => rfl) fun known => ?_
    exact .ite Preserves.throw Preserves.pure

theorem createTier3User_accounts (n : SiloName) (uid : ℕ) :
    Triple (Owning fun _ => True) (createTier3User u n uid) (fun _ => Owning fun _ => True)
      (fun _ => Owning fun _ => True) := by
  refine keeps_bind (refuseTaken_accounts u n uid) (fun _ _ h => h) fun _ => ?_
  refine keeps_bind (purge_accounts u) (fun _ _ h => h) fun purged => ?_
  refine .ite (fun _ => ?_) fun _ => .throw fun _ h => h
  refine .bind (useradd_accounts n uid) fun _ => ?_
  refine keeps_bind (.tryCatch (attempt_accounts _) fun _ => .pure)
    (fun _ _ h => ⟨h.1, trivial⟩) fun _ => ?_
  refine .bind (issueGrant_accounts u n uid) fun _ => ?_
  refine .bind (Q := fun _ => Owning fun v => n.val ∈ v.made) ?_
    fun _ => finishProvisioning_accounts u n uid
  exact .tryCatch (keeps (attempt_accounts _) _) fun e => rolledBack_accounts u n _

theorem create_accounts (adminUid : ℕ) (r : CreateRequest) :
    Triple (Owning fun _ => True) (create u adminUid r) (fun _ => Owning fun _ => True)
      (fun _ => Owning fun _ => True) := by
  unfold create
  split
  next h =>
    have hvalid : Preserves World.accountView (validateSiloUid adminUid r.uid r.kind) := by
      cases r.kind with
      | tier3User => exact .ite Preserves.throw Preserves.pure
      | tier2Template => exact .ite Preserves.pure Preserves.throw
      | tier3s => exact .ite Preserves.pure Preserves.throw
    refine keeps_bind hvalid (fun _ _ h => h) fun _ => ?_
    split
    · exact .throw fun _ h => h
    · refine .ite (fun _ => createTier3User_accounts u _ _) fun hkind => ?_
      refine keeps_bind Preserves.get (fun _ _ h => h) fun w => ?_
      refine .ite (fun _ => .throw fun _ h => h) fun _ => ?_
      refine commitRow_accounts _ _ (fun _ _ h => h) ?_
      exact fun _ _ _ h => absurd h hkind
  next => exact .ite (fun _ => .throw fun _ h => h) fun _ => .throw fun _ h => h

section

variable (n : SiloName)

theorem setState_accounts (row : Row) (state : SiloState) {R : AccountView → Prop}
    (hR : ∀ v rows, R v → R { v with rows := rows }) (hrow : ∀ v, v.Own → R v → v.Mine n) :
    Triple (Owning R) (setState n row state) (fun _ => Owning R)
      (fun (_ : SiloError) => Owning R) :=
  Triple.modify fun _ hw => ⟨hw.1.insert fun _ => hrow _ hw.1 hw.2, hR _ _ hw.2⟩

theorem transition_accounts (row : Row) (state : SiloState) :
    Triple (Owning fun v => n.val ∈ v.made) (transition u n row state)
      (fun _ => Owning fun v => n.val ∈ v.made) (fun _ => Owning fun v => n.val ∈ v.made) := by
  have hset : ∀ st, Triple (Owning fun v => n.val ∈ v.made) (setState n row st)
      (fun _ => Owning fun v => n.val ∈ v.made)
      (fun (_ : SiloError) => Owning fun v => n.val ∈ v.made) :=
    fun st => setState_accounts n row st (fun _ _ h => h) fun _ _ hmade _ => hmade
  refine .ite (fun _ => ?_) fun _ => .throw fun _ h => h
  refine .bind (hset state) fun _ => ?_
  refine .tryCatch (keeps (attempt_accounts .save) _) fun e => ?_
  exact .bind (hset row.state) fun _ => .throw fun _ h => h

theorem tearDown_accounts (row : Row) (hkind : row.kind = .tier3User) :
    Triple (Owning fun v => n.val ∈ v.made) (tearDown n row)
      (fun _ => Owning fun v => v.Mine n) (fun _ => Owning fun v => v.Mine n) := by
  have hmine : ∀ (e : SiloError) w, Owning (fun v => n.val ∈ v.made) w →
      Owning (fun v => v.Mine n) w := fun _ w hw => ⟨hw.1, fun _ => hw.2⟩
  unfold tearDown unlinkLauncher
  rw [hkind]
  refine keeps_bind (attempt_accounts _) hmine fun _ => ?_
  refine keeps_bind (attempt_accounts _) hmine fun _ => ?_
  refine keeps_bind (removeRelayPolicy_accounts n true) hmine fun _ => ?_
  refine keeps_bind (attempt_accounts _) hmine fun _ => ?_
  exact userdel_accounts n

theorem restore_accounts (row : Row) (e : SiloError) {Q : Unit → World → Prop} :
    Triple (Owning fun v => v.Mine n) (restore u n row e) Q (fun _ => Owning fun _ => True) := by
  have hgrant : Preserves World.accountView (reissue u n row) := by
    refine .ite ?_ Preserves.pure
    refine .bind (.tryCatch (writeRelayPolicy_accounts u n row.uid true)
      fun _ => .pure) fun _ => ?_
    exact .tryCatch (attempt_accounts _) fun _ => .pure
  refine keeps_bind hgrant (fun _ _ h => ⟨h.1, trivial⟩) fun _ => ?_
  refine .bind (Q := fun _ => Owning fun v => v.Mine n) ?_
    fun _ => .throw fun _ h => ⟨h.1, trivial⟩
  refine .bind ((setState_accounts n row .stopped (fun _ _ h => h)
    fun _ _ h => h).conseq (fun _ h => h) (fun _ _ h => h) fun _ _ h => ⟨h.1, trivial⟩) fun _ => ?_
  exact (keeps (attempt_accounts _) _).conseq (fun _ h => h) (fun _ _ h => h)
    fun _ _ h => ⟨h.1, trivial⟩

/-- The silo, if it can be deleted at all, is a tier3-user silo whose account exists. -/
def World.deletesOwn (w : World) (n : SiloName) : Bool :=
  match w.rows.get? n with
  | none => true
  | some row =>
    if row.state = .created ∨ row.state = .stopped then
      row.kind = .tier3User ∧ w.host.userExists n.val
    else true

theorem deletableRow_accounts :
    Triple (fun w => w.accountView.Own ∧ w.deletesOwn n = true) (deletableRow u n)
      (fun row w => row.kind = .tier3User ∧ Owning (fun v => n.val ∈ v.made) w)
      (fun _ => Owning fun _ => True) := by
  refine .bind (Q := fun row w => (w.accountView.Own ∧ w.deletesOwn n = true) ∧
    w.rows.get? n = some row) ?_ fun row => ?_
  · refine .get_bind fun w hw => ?_
    split
    next row hget => exact .pure fun t ht => by subst ht; exact ⟨hw, hget⟩
    next => exact .throw fun t ht => by subst ht; exact ⟨hw.1, trivial⟩
  have hready : (row.state = .created ∨ row.state = .stopped) → ∀ w,
      (w.accountView.Own ∧ w.deletesOwn n = true) ∧ w.rows.get? n = some row →
      row.kind = .tier3User ∧ Owning (fun v => n.val ∈ v.made) w := by
    intro hstate w hw
    obtain ⟨⟨hown, hdel⟩, hget⟩ := hw
    rw [World.deletesOwn, hget] at hdel
    simp only [hstate, if_true, Bool.decide_and, Bool.and_eq_true, decide_eq_true_eq] at hdel
    refine ⟨hdel.1, hown, hown.rows n row hget hdel.1 ?_⟩
    have hany := hdel.2
    rw [Host.userExists, List.any_eq_true] at hany
    obtain ⟨⟨name, uid⟩, hmem, hname⟩ := hany
    obtain rfl := of_decide_eq_true hname
    exact ⟨uid, hmem⟩
  have hthrow : ∀ (w : World), ((w.accountView.Own ∧ w.deletesOwn n = true) ∧
      w.rows.get? n = some row) → Owning (fun _ => True) w := fun w hw => ⟨hw.1.1, trivial⟩
  refine .bind (Q := fun _ w => row.kind = .tier3User ∧
    Owning (fun v => n.val ∈ v.made) w) ?_ fun _ => .pure fun _ h => h
  unfold refuseUnlessDeletable
  rcases hst : row.state
  · exact .pure (hready (.inl hst))
  · exact .throw hthrow
  · exact .throw hthrow
  · exact .throw hthrow
  · exact .pure (hready (.inr hst))
  · exact .throw hthrow

theorem deleteSilo_accounts :
    Triple (fun w => w.accountView.Own ∧ w.deletesOwn n = true) (deleteSilo u n)
      (fun _ => Owning fun _ => True) (fun _ => Owning fun _ => True) := by
  refine .bind (deletableRow_accounts u n) fun row => ?_
  by_cases hkind : row.kind = .tier3User
  swap
  · exact fun w hw => absurd hw.1 hkind
  have hweak : ∀ (e : SiloError) w, Owning (fun v => n.val ∈ v.made) w → Owning (fun _ => True) w :=
    fun _ _ h => ⟨h.1, trivial⟩
  refine .weaken (O := Owning fun v => n.val ∈ v.made) ?_ fun _ hw => hw.2
  have hpurge : Preserves World.accountView (purgeForDelete u n) :=
    Preserves.bind (purge_accounts u) fun _ => .ite (reloadIf_accounts _) Preserves.throw
  refine keeps_bind hpurge hweak fun _ => ?_
  refine .bind ((transition_accounts u n row .deleting).conseq (fun _ h => h)
    (fun _ _ h => h) hweak) fun _ => ?_
  refine .bind (Q := fun _ => Owning fun v => v.Mine n) ?_ fun _ => ?_
  · exact .tryCatch (tearDown_accounts n row hkind) fun e => restore_accounts u n row e
  refine .bind (Q := fun _ => Owning fun _ => True) (.modify fun w hw => ?_)
    fun _ => keeps (attempt_accounts _) _
  exact ⟨hw.1.erase n, trivial⟩

end

theorem reconcile_accounts : Preserves World.accountView (reconcileRelayPolicies u) := by
  refine .bind (purge_accounts u) fun purged => ?_
  refine .ite ?_ Preserves.pure
  refine .bind Preserves.get fun w => ?_
  refine .bind (.tryCatch (ask_preserves fun _ => rfl)
    fun _ => .pure) fun found => ?_
  refine .bind (.foldlM (fun issued e => ?_) _ _) fun issued =>
    Preserves.bind (reloadIf_accounts _) fun _ => .pure
  refine .bind ?_ fun needed => ?_
  · refine .ite (.tryCatch ?_ fun _ => .pure)
      (.tryCatch (ask_preserves fun _ => rfl) fun _ => .pure)
    exact .bind (relayPolicyMatches_preserves (fun _ => rfl) e.1 e.2)
      fun _ => .pure
  · refine .ite (.tryCatch ?_ fun _ => .pure) Preserves.pure
    exact .bind (writeRelayPolicy_accounts u e.1 e.2 false) fun _ => .pure

end Parts

/-! ## Runs of calls -/

section Runs

variable (u : UnicodeDb) (adminUid : ℕ)

/-- A store without silos on a host with any accounts and any files. -/
def World.start (accounts : List (String × ℕ)) (files : PyDict String Content) : World :=
  ⟨⟨accounts, files, []⟩, ∅, [], fun _ => []⟩

/-- A call with the outcomes of its primitives. -/
abbrev CallWith := Call × (Op → List Outcome)

/-- The world after a call. -/
def callStep (w : World) (c : CallWith) : World := step u adminUid w (.call c.1 c.2)

/-- A delete is of a tier3-user silo whose account exists. -/
def deletesOwn (w : World) (c : CallWith) : Bool :=
  match c.1 with
  | .delete name => if h : validName name = true then w.deletesOwn ⟨name, h⟩ else true
  | _ => true

theorem callStep_own {w : World} {c : CallWith} (hc : deletesOwn w c = true)
    (hw : w.accountView.Own) : (callStep u adminUid w c).accountView.Own := by
  obtain ⟨c, outcomes⟩ := c
  have hpending : Owning (fun _ => True) { w with pending := outcomes } := ⟨hw, trivial⟩
  have hends : ∀ {α : Type} {r : Except SiloError α × World},
      Ends (fun _ => Owning fun _ => True) (fun _ => Owning fun _ => True) r →
      r.2.accountView.Own := by
    intro α r hr
    exact hr.state (fun _ _ h => h.1) fun _ _ h => h.1
  cases c with
  | create r => exact hends (create_accounts u adminUid r _ hpending)
  | delete name =>
    show (delete u name { w with pending := outcomes }).2.accountView.Own
    unfold delete
    split
    next h =>
      have hdel : w.deletesOwn ⟨name, h⟩ = true := by
        simpa only [deletesOwn, dif_pos h] using hc
      exact hends (deleteSilo_accounts u ⟨name, h⟩ _ ⟨hw, hdel⟩)
    next => exact hw
  | reconcile =>
    have hkeep : Preserves World.accountView (Call.act u adminUid .reconcile) :=
      Preserves.bind (reconcile_accounts u) fun _ => .pure
    exact hends (keeps hkeep _ _ hpending)

/-- **Only accounts the store made are removed**, in every run whose deletes are of tier3-user
silos with an account. -/
theorem userdel_own (accounts : List (String × ℕ)) (files : PyDict String Content)
    (calls : List CallWith)
    (hdeletes : Meets (callStep u adminUid) (fun w c => deletesOwn w c = true)
      (World.start accounts files) calls) :
    ∀ e ∈ (run (callStep u adminUid) (World.start accounts files) calls).log, e.Own := by
  have hstart : (World.start accounts files).accountView.Own := by
    refine ⟨fun n row hget => ?_, fun e he => ?_⟩
    · cases hget
    · cases he
  have hrun := hdeletes.invariant (P := fun w => w.accountView.Own)
    (fun w c hc hw => callStep_own u adminUid hc hw) hstart
  intro e he
  cases e with
  | userdel n kind host => exact hrun.removals _ (List.mem_filter.mpr ⟨he, rfl⟩)
  | wrote n host => trivial
  | reloaded host => trivial

end Runs

/-- Every primitive succeeds. -/
def allOk : Op → List Outcome := fun _ => []

/-- A tier3-user silo is created and deleted. -/
theorem userdel_own_work :
    Meets (callStep .ascii 1000) (fun w c => deletesOwn w c = true)
        (World.start [("root", 0)] ∅)
        [(.create ⟨"work", 2001, .tier3User, none⟩, allOk), (.delete "work", allOk)] ∧
      ∀ e ∈ (run (callStep .ascii 1000) (World.start [("root", 0)] ∅)
        [(.create ⟨"work", 2001, .tier3User, none⟩, allOk), (.delete "work", allOk)]).log, e.Own := by
  have h : Meets (callStep .ascii 1000) (fun w c => deletesOwn w c = true)
      (World.start [("root", 0)] ∅)
      [(.create ⟨"work", 2001, .tier3User, none⟩, allOk), (.delete "work", allOk)] := by
    decide +kernel
  exact ⟨h, userdel_own .ascii 1000 _ _ _ h⟩

/-- A tier2-template silo is created under the name of an account that is already there, and
deleted: the account is gone. -/
theorem namesake_removed :
    (∃ e ∈ (run (callStep .ascii 1000) (World.start [("root", 0), ("alice", 1500)] ∅)
        [(.create ⟨"alice", 1000, .tier2Template, none⟩, allOk), (.delete "alice", allOk)]).log,
      ¬ e.Own) ∧
      (run (callStep .ascii 1000) (World.start [("root", 0), ("alice", 1500)] ∅)
        [(.create ⟨"alice", 1000, .tier2Template, none⟩, allOk),
          (.delete "alice", allOk)]).host.accounts = [("root", 0)] := by
  decide +kernel

end Silo
