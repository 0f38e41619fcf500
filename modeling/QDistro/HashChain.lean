/-
# Hash chains

A chain folds a list of payloads into a digest: the digest after a payload is the
hash of the payload joined to the digest before it.  The main fact is
`digest_injective`: if the hash has no collision among the texts that were hashed
for two chains, equal digests come from equal payloads.  Global injectivity, which
no hash has, is not needed.

A scheme carries what the argument rests on.  Joining need be injective only on the
digests that occur (`proper`), so that a delimiter may serve as long as no digest
contains it; and the seed must not be a hash, or a chain could be continued from
nothing.
-/
import Mathlib.Data.List.Basic
import Mathlib.Data.List.Induction

/-- A hash with a way to join a digest to a payload, and a seed. -/
structure HashScheme (β γ δ : Type*) where
  hash : β → δ
  join : δ → γ → β
  genesis : δ
  /-- The digests that can occur in a chain. -/
  proper : δ → Prop
  proper_genesis : proper genesis
  proper_hash : ∀ b, proper (hash b)
  join_inj : ∀ {d d' x x'}, proper d → proper d' → join d x = join d' x' → d = d' ∧ x = x'
  hash_ne_genesis : ∀ b, hash b ≠ genesis

namespace HashScheme

variable {β γ δ : Type*} (H : HashScheme β γ δ)

/-- The digest after one more payload. -/
def next (d : δ) (x : γ) : δ := H.hash (H.join d x)

/-- The digest of a list of payloads, started from `d`. -/
def digest (d : δ) (xs : List γ) : δ := xs.foldl H.next d

/-- What is hashed on the way. -/
def preimages : δ → List γ → List β
  | _, [] => []
  | d, x :: xs => H.join d x :: preimages (H.next d x) xs

/-- No two different texts of a list have the same hash. -/
def CollisionFree (hash : β → δ) (hashed : List β) : Prop :=
  ∀ p ∈ hashed, ∀ q ∈ hashed, hash p = hash q → p = q

instance [DecidableEq β] [DecidableEq δ] (hash : β → δ) (hashed : List β) :
    Decidable (CollisionFree hash hashed) :=
  inferInstanceAs (Decidable (∀ p ∈ hashed, ∀ q ∈ hashed, hash p = hash q → p = q))

theorem CollisionFree.subset {hash : β → δ} {l l' : List β} (h : CollisionFree hash l')
    (hsub : l ⊆ l') : CollisionFree hash l :=
  fun p hp q hq => h p (hsub hp) q (hsub hq)

theorem digest_append (d : δ) (xs ys : List γ) :
    H.digest d (xs ++ ys) = H.digest (H.digest d xs) ys :=
  List.foldl_append

theorem preimages_append (d : δ) (xs ys : List γ) :
    H.preimages d (xs ++ ys) = H.preimages d xs ++ H.preimages (H.digest d xs) ys := by
  induction xs generalizing d with
  | nil => rfl
  | cons x xs ih =>
    rw [List.cons_append, preimages, preimages, ih, List.cons_append]
    rfl

theorem proper_digest {d : δ} (h : H.proper d) (xs : List γ) : H.proper (H.digest d xs) := by
  induction xs generalizing d with
  | nil => exact h
  | cons x xs ih => exact ih (H.proper_hash _)

theorem digest_concat_ne_genesis (xs : List γ) (x : γ) :
    H.digest H.genesis (xs ++ [x]) ≠ H.genesis := by
  rw [digest_append]
  exact H.hash_ne_genesis _

/-- **A digest commits to its payloads**, as far as the hash has no collision among
the texts hashed for the two chains. -/
theorem digest_injective {xs ys : List γ}
    (hcf : CollisionFree H.hash (H.preimages H.genesis xs ++ H.preimages H.genesis ys))
    (h : H.digest H.genesis xs = H.digest H.genesis ys) : xs = ys := by
  -- from the newest payload backwards
  induction xs using List.reverseRecOn generalizing ys with
  | nil =>
    rcases List.eq_nil_or_concat' ys with rfl | ⟨ys, y, rfl⟩
    · rfl
    · exact absurd h.symm (H.digest_concat_ne_genesis ys y)
  | append_singleton xs x ih =>
    rcases List.eq_nil_or_concat' ys with rfl | ⟨ys, y, rfl⟩
    · exact absurd h (H.digest_concat_ne_genesis xs x)
    · simp only [preimages_append] at hcf
      rw [digest_append, digest_append] at h
      have hpre : H.join (H.digest H.genesis xs) x = H.join (H.digest H.genesis ys) y :=
        hcf _ (by simp [preimages]) _ (by simp [preimages]) h
      obtain ⟨hd, hx⟩ := H.join_inj (H.proper_digest H.proper_genesis xs)
        (H.proper_digest H.proper_genesis ys) hpre
      rw [ih (hcf.subset fun p hp => by
        rcases List.mem_append.mp hp with hp | hp <;> simp [hp]) hd, hx]

end HashScheme
