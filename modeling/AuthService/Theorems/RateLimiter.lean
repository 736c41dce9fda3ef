import AuthService.RateLimiter

/-!
# The in-memory limiter counts in a sliding window

The buckets of a scope hold, for each key, the counted times that may still be live, and their order is the order of their
last times. So a live bucket in front means that every bucket is live, and eviction from the front alone finds room whenever
there is some.
-/

namespace AuthService

open SlidingWindow

namespace InMemory

namespace TracksAux

/-- The times stored for a key. -/
def bucketOf (buckets : Buckets) (key : BucketKey) : List ℚ := (buckets.get? key).getD []

/-- The bucket of an item's key is the item's. -/
theorem bucketOf_eq_of_mem {buckets : Buckets} {p : BucketKey × List ℚ} (h : p ∈ buckets.items) :
    bucketOf buckets p.1 = p.2 := by
  rw [bucketOf, OrderedDict.get?_eq_some.2 h]
  rfl

/-- A key that is absent has the empty bucket. -/
theorem bucketOf_of_not_mem {buckets : Buckets} {key : BucketKey} (h : key ∉ buckets.keys) : bucketOf buckets key = [] := by
  rw [bucketOf, OrderedDict.get?_eq_none.2 h]
  rfl

/-- A non-empty bucket has its key in the dictionary. -/
theorem mem_keys_of_bucketOf {buckets : Buckets} {key : BucketKey} (h : bucketOf buckets key ≠ []) : key ∈ buckets.keys := by
  by_contra hmem
  exact h (bucketOf_of_not_mem hmem)

/-- The buckets of a scope track the counted events of the scope. -/
structure Tracks (W : Window ℚ) (cap : Int) (now : ℚ) (buckets : Buckets) (events : List (BucketKey × ℚ)) : Prop where
  nonempty : ∀ p ∈ buckets.items, p.2 ≠ []
  sorted : ∀ p ∈ buckets.items, p.2.Pairwise (· ≤ ·)
  past : ∀ p ∈ buckets.items, ∀ t ∈ p.2, t ≤ now
  ordered : buckets.items.Pairwise (fun p q => ∃ t ∈ q.2, ∀ s ∈ p.2, s ≤ t)
  agrees : ∀ key now', now ≤ now' → W.alive now' (bucketOf buckets key) = W.alive now' (timesOf events key)
  bounded : buckets.size ≤ cap

variable {W : Window ℚ} {cap : Int} {now : ℚ} {buckets : Buckets} {events : List (BucketKey × ℚ)}

/-- Buckets that track the events still track them later. -/
theorem Tracks.mono (h : Tracks W cap now buckets events) {now' : ℚ} (hle : now ≤ now') :
    Tracks W cap now' buckets events :=
  ⟨h.nonempty, h.sorted, fun p hp t ht => (h.past p hp t ht).trans hle, h.ordered,
    fun key later hlater => h.agrees key later (hle.trans hlater), h.bounded⟩

/-! ## Buckets that lost dead times -/

/-- Some buckets were trimmed, and some that were left empty were dropped. -/
inductive Thinned (W : Window ℚ) (now : ℚ) : List (BucketKey × List ℚ) → List (BucketKey × List ℚ) → Prop
  | nil : Thinned W now [] []
  | keep {l l'} (p : BucketKey × List ℚ) : Thinned W now l l' → Thinned W now (p :: l) (p :: l')
  | trim {l l'} (p : BucketKey × List ℚ) : W.alive now p.2 ≠ [] → Thinned W now l l' →
      Thinned W now (p :: l) ((p.1, W.alive now p.2) :: l')
  | drop {l l'} (p : BucketKey × List ℚ) : W.alive now p.2 = [] → Thinned W now l l' → Thinned W now (p :: l) l'

/-- Buckets are a thinning of themselves. -/
theorem Thinned.refl (W : Window ℚ) (now : ℚ) (l : List (BucketKey × List ℚ)) : Thinned W now l l := by
  induction l with
  | nil => exact Thinned.nil
  | cons p l ih => exact Thinned.keep p ih

/-- A thinning has no more buckets. -/
theorem Thinned.length_le {l l' : List (BucketKey × List ℚ)} (h : Thinned W now l l') : l'.length ≤ l.length := by
  induction h with
  | nil => exact le_refl _
  | keep p _ ih => exact Nat.succ_le_succ ih
  | trim p _ _ ih => exact Nat.succ_le_succ ih
  | drop p _ _ ih => exact ih.trans (Nat.le_succ _)

/-- Where a bucket comes from. -/
theorem Thinned.origin {l l' : List (BucketKey × List ℚ)} (h : Thinned W now l l') {p' : BucketKey × List ℚ}
    (hp' : p' ∈ l') : ∃ p ∈ l, p'.1 = p.1 ∧ (p'.2 = p.2 ∨ p'.2 = W.alive now p.2 ∧ p'.2 ≠ []) := by
  induction h with
  | nil => cases hp'
  | keep p _ ih =>
    rcases List.mem_cons.1 hp' with rfl | hp'
    · exact ⟨p', List.mem_cons_self, rfl, Or.inl rfl⟩
    · obtain ⟨q, hq, hrest⟩ := ih hp'
      exact ⟨q, List.mem_cons_of_mem _ hq, hrest⟩
  | trim p hne _ ih =>
    rcases List.mem_cons.1 hp' with rfl | hp'
    · exact ⟨p, List.mem_cons_self, rfl, Or.inr ⟨rfl, hne⟩⟩
    · obtain ⟨q, hq, hrest⟩ := ih hp'
      exact ⟨q, List.mem_cons_of_mem _ hq, hrest⟩
  | drop p _ _ ih =>
    obtain ⟨q, hq, hrest⟩ := ih hp'
    exact ⟨q, List.mem_cons_of_mem _ hq, hrest⟩

/-- Where a bucket goes. -/
theorem Thinned.survives {l l' : List (BucketKey × List ℚ)} (h : Thinned W now l l') {p : BucketKey × List ℚ}
    (hp : p ∈ l) : W.alive now p.2 = [] ∨ ∃ p' ∈ l', p'.1 = p.1 := by
  induction h with
  | nil => cases hp
  | keep q _ ih =>
    rcases List.mem_cons.1 hp with rfl | hp
    · exact Or.inr ⟨p, List.mem_cons_self, rfl⟩
    · exact (ih hp).imp_right fun ⟨p', hp', hk⟩ => ⟨p', List.mem_cons_of_mem _ hp', hk⟩
  | trim q _ _ ih =>
    rcases List.mem_cons.1 hp with rfl | hp
    · exact Or.inr ⟨_, List.mem_cons_self, rfl⟩
    · exact (ih hp).imp_right fun ⟨p', hp', hk⟩ => ⟨p', List.mem_cons_of_mem _ hp', hk⟩
  | drop q hdead _ ih =>
    rcases List.mem_cons.1 hp with rfl | hp
    · exact Or.inl hdead
    · exact ih hp

/-- A thinning keeps the order of the last times. -/
theorem Thinned.ordered {l l' : List (BucketKey × List ℚ)} (h : Thinned W now l l')
    (hord : l.Pairwise (fun p q => ∃ t ∈ q.2, ∀ s ∈ p.2, s ≤ t)) :
    l'.Pairwise (fun p q => ∃ t ∈ q.2, ∀ s ∈ p.2, s ≤ t) := by
  -- a time above all of an earlier bucket is left in a bucket that is trimmed: when it is dead, a live one is above it
  have hlater : ∀ {l l' : List (BucketKey × List ℚ)} {times : List ℚ}, Thinned W now l l' →
      (∀ q ∈ l, ∃ t ∈ q.2, ∀ s ∈ times, s ≤ t) → ∀ q ∈ l', ∃ t ∈ q.2, ∀ s ∈ times, s ≤ t := by
    intro l l' times h hall q hq
    obtain ⟨p, hp, -, heq | ⟨heq, hne⟩⟩ := h.origin hq
    · rw [heq]
      exact hall p hp
    · obtain ⟨t, ht, hs⟩ := hall p hp
      rw [heq] at hne ⊢
      obtain ⟨u, hu⟩ := List.exists_mem_of_ne_nil _ hne
      rw [mem_alive] at hu
      rcases le_total u t with hut | htu
      · exact ⟨t, mem_alive.2 ⟨ht, W.upward hut hu.2⟩, hs⟩
      · exact ⟨u, mem_alive.2 hu, fun s hs' => (hs s hs').trans htu⟩
  induction h with
  | nil => exact hord
  | keep p hrest ih =>
    rw [List.pairwise_cons] at hord
    exact List.pairwise_cons.2 ⟨hlater hrest hord.1, ih hord.2⟩
  | trim p _ hrest ih =>
    rw [List.pairwise_cons] at hord
    refine List.pairwise_cons.2 ⟨hlater hrest fun q hq => ?_, ih hord.2⟩
    obtain ⟨t, ht, hs⟩ := hord.1 q hq
    exact ⟨t, ht, fun s hs' => hs s (mem_alive.1 hs').1⟩
  | drop p _ _ ih =>
    rw [List.pairwise_cons] at hord
    exact ih hord.2

/-- Thinned buckets have the same live times. -/
theorem Thinned.alive_bucketOf {buckets' : Buckets} (h : Thinned W now buckets.items buckets'.items) (key : BucketKey)
    {now' : ℚ} (hle : now ≤ now') : W.alive now' (bucketOf buckets' key) = W.alive now' (bucketOf buckets key) := by
  by_cases hkey : key ∈ buckets'.keys
  · obtain ⟨p', hp', rfl⟩ := List.mem_map.1 hkey
    obtain ⟨p, hp, hk, heq | ⟨heq, -⟩⟩ := h.origin hp'
    · rw [bucketOf_eq_of_mem hp', hk, bucketOf_eq_of_mem hp, heq]
    · rw [bucketOf_eq_of_mem hp', hk, bucketOf_eq_of_mem hp, heq, alive_alive W hle]
  · rw [bucketOf_of_not_mem hkey, alive_nil]
    by_cases hkey' : key ∈ buckets.keys
    · obtain ⟨p, hp, rfl⟩ := List.mem_map.1 hkey'
      rw [bucketOf_eq_of_mem hp]
      rcases h.survives hp with hdead | ⟨p', hp', hk⟩
      · rw [← alive_alive W hle, hdead, alive_nil]
      · exact absurd (List.mem_map.2 ⟨p', hp', hk⟩) hkey
    · rw [bucketOf_of_not_mem hkey', alive_nil]

/-- A thinning of the buckets still tracks the events. -/
theorem Tracks.thinned {buckets' : Buckets} (h : Tracks W cap now buckets events)
    (ht : Thinned W now buckets.items buckets'.items) : Tracks W cap now buckets' events where
  nonempty p' hp' := by
    obtain ⟨p, hp, -, heq | ⟨-, hne⟩⟩ := ht.origin hp'
    · rw [heq]
      exact h.nonempty p hp
    · exact hne
  sorted p' hp' := by
    obtain ⟨p, hp, -, heq | ⟨heq, -⟩⟩ := ht.origin hp'
    · rw [heq]
      exact h.sorted p hp
    · rw [heq]
      exact (h.sorted p hp).filter _
  past p' hp' t hmem := by
    obtain ⟨p, hp, -, heq | ⟨heq, -⟩⟩ := ht.origin hp'
    · rw [heq] at hmem
      exact h.past p hp t hmem
    · rw [heq] at hmem
      exact h.past p hp t (mem_alive.1 hmem).1
  ordered := ht.ordered h.ordered
  agrees key now' hle := (ht.alive_bucketOf key hle).trans (h.agrees key now' hle)
  bounded := (Int.ofNat_le.2 ht.length_le).trans h.bounded

/-! ## Lookups -/

variable {C : Clock} {windowSeconds : Int}

/-- Trimming a sorted bucket keeps the live times. -/
theorem trim_eq_alive {bucket : List ℚ} (h : bucket.Pairwise (· ≤ ·)) (now : ℚ) :
    trim C bucket now windowSeconds = (LimiterSpec.window C windowSeconds).alive now bucket := by
  rw [← dropWhile_eq_alive _ _ h, trim]
  congr 1
  funext t
  simp only [LimiterSpec.window, gt_iff_lt, ← not_le, decide_not]

/-- Trimming one bucket in its place. -/
theorem thinned_setAt {key : BucketKey} {bucket : List ℚ} (hb : bucketOf buckets key = bucket)
    (hne : W.alive now bucket ≠ []) : Thinned W now buckets.items (buckets.setAt key (W.alive now bucket)).items := by
  subst hb
  have hgen : ∀ l : List (BucketKey × List ℚ), (∀ p ∈ l, p ∈ buckets.items) →
      Thinned W now l (l.map fun p => if p.1 = key then (key, W.alive now (bucketOf buckets key)) else p) := by
    intro l hl
    induction l with
    | nil => exact Thinned.nil
    | cons p l ih =>
      have ih := ih fun q hq => hl q (List.mem_cons_of_mem _ hq)
      rw [List.map_cons]
      split
      · rename_i hk
        subst hk
        rw [bucketOf_eq_of_mem (hl p List.mem_cons_self)] at hne ih ⊢
        exact Thinned.trim p hne ih
      · exact Thinned.keep p ih
  exact hgen _ fun p hp => hp

/-- Dropping one dead bucket. -/
theorem thinned_erase {key : BucketKey} {bucket : List ℚ} (hb : bucketOf buckets key = bucket)
    (hdead : W.alive now bucket = []) : Thinned W now buckets.items (buckets.erase key).items := by
  subst hb
  have hgen : ∀ l : List (BucketKey × List ℚ), (∀ p ∈ l, p ∈ buckets.items) →
      Thinned W now l (l.filter fun p => p.1 ≠ key) := by
    intro l hl
    induction l with
    | nil => exact Thinned.nil
    | cons p l ih =>
      have ih := ih fun q hq => hl q (List.mem_cons_of_mem _ hq)
      rw [List.filter_cons]
      split
      · exact Thinned.keep p ih
      · rename_i hk
        simp only [ne_eq, decide_not, Bool.not_eq_true', decide_eq_false_iff_not, not_not] at hk
        subst hk
        rw [bucketOf_eq_of_mem (hl p List.mem_cons_self)] at hdead
        exact Thinned.drop p hdead ih
  exact hgen _ fun p hp => hp

/-- A lookup returns the live times of the key, and leaves exactly these in its bucket. -/
theorem getExistingBucket_spec (h : Tracks (LimiterSpec.window C windowSeconds) cap now buckets events) (key : BucketKey) :
    (getExistingBucket C buckets key now windowSeconds).2 =
        (LimiterSpec.window C windowSeconds).alive now (timesOf events key) ∧
      bucketOf (getExistingBucket C buckets key now windowSeconds).1 key =
        (getExistingBucket C buckets key now windowSeconds).2 ∧
      Tracks (LimiterSpec.window C windowSeconds) cap now (getExistingBucket C buckets key now windowSeconds).1 events := by
  have hagrees := h.agrees key now (le_refl _)
  unfold getExistingBucket
  cases hget : buckets.get? key with
  | none =>
    have hb : bucketOf buckets key = [] := by rw [bucketOf, hget]; rfl
    rw [hb] at hagrees
    exact ⟨hagrees, hb, h⟩
  | some bucket =>
    have hb : bucketOf buckets key = bucket := by rw [bucketOf, hget]; rfl
    have hmem := OrderedDict.get?_eq_some.1 hget
    have hkey : key ∈ buckets.keys := List.mem_map.2 ⟨_, hmem, rfl⟩
    simp only [trim_eq_alive (h.sorted _ hmem)]
    rw [hb] at hagrees
    by_cases hdead : (LimiterSpec.window C windowSeconds).alive now bucket = []
    · simp only [hdead, if_true]
      refine ⟨hdead.symm.trans hagrees, ?_, h.thinned (thinned_erase hb hdead)⟩
      rw [bucketOf, OrderedDict.get?_erase, if_pos rfl]
      rfl
    · simp only [hdead, if_false, OrderedDict.set, if_pos hkey]
      refine ⟨hagrees, ?_, ?_⟩
      · rw [bucketOf, OrderedDict.get?_setAt hkey, if_pos rfl]
        rfl
      · exact h.thinned (thinned_setAt hb hdead)

/-! ## Eviction -/

/-- Every bucket behind a live one is live. -/
theorem all_live_of_front {p : BucketKey × List ℚ} {l : List (BucketKey × List ℚ)}
    (hord : (p :: l).Pairwise (fun p q => ∃ t ∈ q.2, ∀ s ∈ p.2, s ≤ t)) (hp : W.alive now p.2 ≠ []) :
    ∀ q ∈ p :: l, W.alive now q.2 ≠ [] := by
  intro q hq
  rcases List.mem_cons.1 hq with rfl | hq
  · exact hp
  · obtain ⟨s, hs⟩ := List.exists_mem_of_ne_nil _ hp
    rw [mem_alive] at hs
    obtain ⟨t, ht, hle⟩ := (List.pairwise_cons.1 hord).1 q hq
    exact List.ne_nil_of_mem (mem_alive.2 ⟨ht, W.upward (hle s hs.1) hs.2⟩)

/-- The loop drops dead buckets from the front; where it stops with the cap still reached, every bucket is live. -/
theorem evictLoop_spec (C : Clock) (maxBuckets : Int) (now : ℚ) (windowSeconds : Int) {items : List (BucketKey × List ℚ)}
    (hsorted : ∀ p ∈ items, p.2.Pairwise (· ≤ ·))
    (hord : items.Pairwise (fun p q => ∃ t ∈ q.2, ∀ s ∈ p.2, s ≤ t)) :
    Thinned (LimiterSpec.window C windowSeconds) now items (evictLoop C maxBuckets now windowSeconds items) ∧
      (maxBuckets ≤ (evictLoop C maxBuckets now windowSeconds items).length →
        ∀ p ∈ evictLoop C maxBuckets now windowSeconds items, (LimiterSpec.window C windowSeconds).alive now p.2 ≠ []) := by
  induction items with
  | nil => exact ⟨Thinned.nil, fun _ p hp => by cases hp⟩
  | cons p rest ih =>
    obtain ⟨ihthin, ihlive⟩ := ih (fun q hq => hsorted q (List.mem_cons_of_mem _ hq)) (List.pairwise_cons.1 hord).2
    rw [evictLoop]
    simp only [trim_eq_alive (hsorted p List.mem_cons_self)]
    split
    · by_cases hdead : (LimiterSpec.window C windowSeconds).alive now p.2 = []
      · rw [if_pos hdead]
        exact ⟨Thinned.drop p hdead ihthin, ihlive⟩
      · rw [if_neg hdead]
        have hthin := Thinned.trim (W := LimiterSpec.window C windowSeconds) p hdead (Thinned.refl _ now rest)
        refine ⟨hthin, fun _ => all_live_of_front (hthin.ordered hord) ?_⟩
        simp only [alive_alive _ (le_refl now)]
        exact hdead
    · rename_i hlt
      refine ⟨Thinned.refl _ _ _, fun hge => absurd hge ?_⟩
      simpa using hlt

/-- The keys that have a live event have a bucket. -/
theorem length_liveKeys_le (h : Tracks W cap now buckets events) : (liveKeys W events now).length ≤ buckets.size := by
  have hsub : liveKeys W events now ⊆ buckets.keys := by
    intro key hkey
    rw [mem_liveKeys, ← h.agrees key now (le_refl _)] at hkey
    exact mem_keys_of_bucketOf fun hnil => hkey (by rw [hnil]; rfl)
  simpa [OrderedDict.size, OrderedDict.keys] using ((nodup_liveKeys W events now).subperm hsub).length_le

/-- When every bucket is live, the keys with a bucket have a live event. -/
theorem size_le_length_liveKeys (h : Tracks W cap now buckets events)
    (hlive : ∀ p ∈ buckets.items, W.alive now p.2 ≠ []) : buckets.size ≤ (liveKeys W events now).length := by
  have hsub : buckets.keys ⊆ liveKeys W events now := by
    intro key hkey
    obtain ⟨p, hp, rfl⟩ := List.mem_map.1 hkey
    rw [mem_liveKeys, ← h.agrees p.1 now (le_refl _), bucketOf_eq_of_mem hp]
    exact hlive p hp
  simpa [OrderedDict.size, OrderedDict.keys] using (buckets.nodup.subperm hsub).length_le

/-! ## Records -/

/-- The bucket of a counted event is put last. -/
theorem Tracks.counted (h : Tracks W cap now buckets events) (key : BucketKey)
    (hroom : key ∈ buckets.keys ∨ (buckets.size : Int) < cap) :
    Tracks W cap now (buckets.putLast key (bucketOf buckets key ++ [now])) (events ++ [(key, now)]) where
  nonempty p hp := by
    rcases OrderedDict.mem_putLast_items.1 hp with rfl | ⟨hp, -⟩
    · simp
    · exact h.nonempty p hp
  sorted p hp := by
    rcases OrderedDict.mem_putLast_items.1 hp with rfl | ⟨hp, -⟩
    · by_cases hkey : key ∈ buckets.keys
      · obtain ⟨q, hq, rfl⟩ := List.mem_map.1 hkey
        rw [bucketOf_eq_of_mem hq, List.pairwise_append]
        exact ⟨h.sorted q hq, List.pairwise_singleton _ _, fun t ht u hu => by
          rw [List.mem_singleton.1 hu]; exact h.past q hq t ht⟩
      · rw [bucketOf_of_not_mem hkey]
        exact List.pairwise_singleton _ _
    · exact h.sorted p hp
  past p hp t ht := by
    rcases OrderedDict.mem_putLast_items.1 hp with rfl | ⟨hp, -⟩
    · rcases List.mem_append.1 ht with ht | ht
      · have hkey := mem_keys_of_bucketOf (List.ne_nil_of_mem ht)
        obtain ⟨q, hq, rfl⟩ := List.mem_map.1 hkey
        rw [bucketOf_eq_of_mem hq] at ht
        exact h.past q hq t ht
      · rw [List.mem_singleton.1 ht]
    · exact h.past p hp t ht
  ordered := by
    refine List.pairwise_append.2 ⟨h.ordered.filter _, List.pairwise_singleton _ _, ?_⟩
    intro p hp q hq
    rw [List.mem_singleton.1 hq]
    exact ⟨now, by simp, h.past p (OrderedDict.mem_erase_items.1 hp).1⟩
  agrees key' now' hle := by
    rw [timesOf_counted, bucketOf, OrderedDict.get?_putLast]
    split
    · rename_i hk
      rw [hk, Option.getD_some, alive_append, alive_append, h.agrees key now' hle]
    · exact h.agrees key' now' hle
  bounded := by
    have herase : (buckets.putLast key (bucketOf buckets key ++ [now])).size = (buckets.erase key).size + 1 := by
      simp [OrderedDict.putLast, OrderedDict.size]
    rw [herase]
    rcases hroom with hkey | hlt
    · have hsmaller : (buckets.erase key).items.length < buckets.items.length := by
        obtain ⟨p, hp, hk⟩ := List.mem_map.1 hkey
        exact List.length_filter_lt_length_iff_exists.2 ⟨p, hp, by simp [hk]⟩
      have := h.bounded
      simp only [OrderedDict.size] at this ⊢
      omega
    · have hle : (buckets.erase key).items.length ≤ buckets.items.length := List.length_filter_le _ _
      simp only [OrderedDict.size] at hlt ⊢
      omega

/-- The buckets after `_get_or_create_bucket` and the `append` of its caller. -/
def recorded (C : Clock) (buckets : Buckets) (key : BucketKey) (maxBuckets : Int) (now : ℚ) (windowSeconds : Int) : Buckets :=
  match getOrCreateBucket C buckets key maxBuckets now windowSeconds with
  | (buckets, none) => buckets
  | (buckets, some bucket) => buckets.set key (bucket ++ [now])

/-- A record counts as the specification does. -/
theorem recorded_spec (h : Tracks (LimiterSpec.window C windowSeconds) cap now buckets events) (key : BucketKey) :
    Tracks (LimiterSpec.window C windowSeconds) cap now (recorded C buckets key cap now windowSeconds)
      (SlidingWindow.record (LimiterSpec.window C windowSeconds) cap events now key) := by
  obtain ⟨hlive, hbucket, htracks⟩ := getExistingBucket_spec h key
  unfold recorded getOrCreateBucket
  generalize getExistingBucket C buckets key now windowSeconds = found at hlive hbucket htracks
  obtain ⟨found, bucket⟩ := found
  simp only at hlive hbucket htracks ⊢
  have hcount : liveCount (LimiterSpec.window C windowSeconds) events now key = bucket.length := by rw [liveCount, hlive]
  by_cases hne : bucket = []
  · subst hne
    have hkey : key ∉ found.keys := fun hmem => by
      obtain ⟨p, hp, rfl⟩ := List.mem_map.1 hmem
      rw [bucketOf_eq_of_mem hp] at hbucket
      exact htracks.nonempty p hp hbucket
    simp only [ne_eq, not_true_eq_false, if_false]
    -- the eviction leaves a dictionary without the key, and full only when every bucket is live
    obtain ⟨room, hroom, hrtracks, hrkey, hfull⟩ : ∃ room : Buckets,
        (if cap ≤ found.size then evictExpiredBuckets C found cap now windowSeconds else found) = room ∧
        Tracks (LimiterSpec.window C windowSeconds) cap now room events ∧ key ∉ room.keys ∧
        (cap ≤ room.size → ∀ p ∈ room.items, (LimiterSpec.window C windowSeconds).alive now p.2 ≠ []) := by
      split
      · obtain ⟨hthin, hall⟩ := evictLoop_spec C cap now windowSeconds htracks.sorted htracks.ordered
        exact ⟨_, rfl, htracks.thinned hthin, fun hmem => hkey ((keys_evictLoop C _ _ _ _).subset hmem), hall⟩
      · rename_i hlt
        exact ⟨_, rfl, htracks, hkey, fun hge => absurd hge hlt⟩
    rw [hroom]
    by_cases hcap : cap ≤ room.size
    · have hlen := size_le_length_liveKeys hrtracks (hfull hcap)
      have hrefused : ¬(0 < liveCount (LimiterSpec.window C windowSeconds) events now key ∨
          ((liveKeys (LimiterSpec.window C windowSeconds) events now).length : Int) < cap) := by
        rw [hcount, List.length_nil]
        omega
      rw [SlidingWindow.record, if_neg hrefused]
      simpa only [if_pos hcap] using hrtracks
    · have hlen := length_liveKeys_le hrtracks
      rw [SlidingWindow.record, if_pos (Or.inr (by omega))]
      have hcounted := hrtracks.counted key (Or.inr (not_le.1 hcap))
      rw [bucketOf_of_not_mem hrkey, ← OrderedDict.set_putLast room key []] at hcounted
      simpa only [if_neg hcap, OrderedDict.set_of_not_mem hrkey] using hcounted
  · have hkey : key ∈ found.keys := mem_keys_of_bucketOf (by rw [hbucket]; exact hne)
    have hget : found.get? key = some bucket := by
      obtain ⟨p, hp, rfl⟩ := List.mem_map.1 hkey
      rw [bucketOf_eq_of_mem hp] at hbucket
      rw [← hbucket]
      exact OrderedDict.get?_eq_some.2 hp
    simp only [ne_eq, hne, not_false_eq_true, if_true, OrderedDict.moveToEnd, hget]
    rw [OrderedDict.set_putLast, SlidingWindow.record, if_pos (Or.inl (by rw [hcount]; exact List.length_pos_iff.2 hne))]
    have hcounted := htracks.counted key (Or.inl hkey)
    rw [hbucket] at hcounted
    exact hcounted

/-- A forgotten key loses its bucket. -/
theorem Tracks.forgotten (h : Tracks W cap now buckets events) (key : BucketKey) :
    Tracks W cap now (buckets.erase key) (forget events key) where
  nonempty p hp := h.nonempty p (OrderedDict.mem_erase_items.1 hp).1
  sorted p hp := h.sorted p (OrderedDict.mem_erase_items.1 hp).1
  past p hp := h.past p (OrderedDict.mem_erase_items.1 hp).1
  ordered := h.ordered.filter _
  agrees key' now' hle := by
    rw [timesOf_forget, bucketOf, OrderedDict.get?_erase]
    split
    · rfl
    · exact h.agrees key' now' hle
  bounded := by
    have hle : (buckets.erase key).items.length ≤ buckets.items.length := List.length_filter_le _ _
    have := h.bounded
    simp only [OrderedDict.size] at this ⊢
    omega

/-- No buckets track no events. -/
theorem tracks_empty (W : Window ℚ) {cap : Int} (hcap : 0 ≤ cap) (now : ℚ) : Tracks W cap now OrderedDict.empty [] :=
  ⟨by simp [OrderedDict.empty], by simp [OrderedDict.empty], by simp [OrderedDict.empty], List.Pairwise.nil,
    fun _ _ _ => rfl, hcap⟩

/-! ## Operations -/

variable {S : LimiterSettings} {L : Limiter} {H : LimiterSpec.History}

/-- The limiter tracks the counted events of every scope. -/
def Agree (C : Clock) (S : LimiterSettings) (now : ℚ) (L : Limiter) (H : LimiterSpec.History) : Prop :=
  ∀ scope, Tracks (LimiterSpec.window C (S.windowOf scope)) S.maxBucketsPerScope now (L.buckets scope) (H scope)

/-- A change of one scope. -/
theorem Agree.update (h : Agree C S now L H) {scope : Scope} {buckets : Buckets} {events : List (BucketKey × ℚ)}
    (ht : Tracks (LimiterSpec.window C (S.windowOf scope)) S.maxBucketsPerScope now buckets events) (warned : List Scope) :
    Agree C S now ⟨Function.update L.buckets scope buckets, warned⟩ (Function.update H scope events) := by
  intro scope'
  by_cases hs : scope' = scope
  · subst hs
    simpa only [Function.update_self] using ht
  · simpa only [Function.update_of_ne hs] using h scope'

/-- A check counts the live events and keeps the agreement. -/
theorem check_spec (h : Agree C S now L H) (scope : Scope) (key : BucketKey) :
    (check C scope key now (S.windowOf scope) L).1 = LimiterSpec.count C S scope key now H ∧
      Agree C S now (check C scope key now (S.windowOf scope) L).2 H := by
  obtain ⟨hlive, -, htracks⟩ := getExistingBucket_spec (h scope) key
  refine ⟨by simp only [check, hlive, LimiterSpec.count, liveCount], ?_⟩
  have hupd := h.update htracks L.capWarningScopes
  rwa [Function.update_eq_self] at hupd

/-- A record keeps the agreement. -/
theorem record_spec (h : Agree C S now L H) (scope : Scope) (key : BucketKey) :
    Agree C S now (record C S scope key now (S.windowOf scope) L) (LimiterSpec.record C S scope key now H) := by
  have hrec := recorded_spec (h scope) key
  unfold recorded at hrec
  unfold record LimiterSpec.record
  split at hrec
  · rename_i heq
    rw [heq]
    exact h.update hrec _
  · rename_i heq
    rw [heq]
    exact h.update hrec _

/-- Every operation answers as the specification does, and the limiter goes on tracking. -/
theorem step_spec (h : Agree C S now L H) (op : LimiterOp) :
    (step C S now op L).1 = (LimiterSpec.step C S now op H).1 ∧
      Agree C S now (step C S now op L).2 (LimiterSpec.step C S now op H).2 := by
  cases op with
  | isAllowed ip email =>
    obtain ⟨h1, ha1⟩ := check_spec h .emailIp (emailIpKey ip email)
    obtain ⟨h2, ha2⟩ := check_spec ha1 .ip ip
    obtain ⟨h3, ha3⟩ := check_spec ha2 .email email
    simp only [LimiterSettings.windowOf] at h1 h2 h3 ha3
    exact ⟨by simp only [step, isAllowed, Prod.map, h1, h2, h3, LimiterSpec.step], ha3⟩
  | isAccountDeletionReauthAllowed ip email =>
    obtain ⟨h1, ha1⟩ := check_spec h .emailIp (emailIpKey ip email)
    obtain ⟨h2, ha2⟩ := check_spec ha1 .ip ip
    simp only [LimiterSettings.windowOf] at h1 h2 ha2
    exact ⟨by simp only [step, isAccountDeletionReauthAllowed, Prod.map, h1, h2, LimiterSpec.step], ha2⟩
  | recordFailure ip email includeEmailBucket =>
    have h2 := record_spec (record_spec h .emailIp (emailIpKey ip email)) .ip ip
    cases includeEmailBucket with
    | false => exact ⟨rfl, h2⟩
    | true => exact ⟨rfl, record_spec h2 .email email⟩
  | recordSuccess ip email => exact ⟨rfl, h.update ((h .emailIp).forgotten _) _⟩
  | isRegistrationAllowed ip =>
    obtain ⟨h1, ha1⟩ := check_spec h .registrationIp ip
    simp only [LimiterSettings.windowOf] at h1 ha1
    exact ⟨by simp only [step, isRegistrationAllowed, Prod.map, h1, LimiterSpec.step], ha1⟩
  | recordRegistration ip => exact ⟨rfl, record_spec h .registrationIp ip⟩
  | isOidcAuthorizationAllowed ip =>
    obtain ⟨h1, ha1⟩ := check_spec h .oidcAuthorizationIp ip
    simp only [LimiterSettings.windowOf] at h1 ha1
    exact ⟨by simp only [step, isOidcAuthorizationAllowed, Prod.map, h1, LimiterSpec.step], ha1⟩
  | recordOidcAuthorization ip => exact ⟨rfl, record_spec h .oidcAuthorizationIp ip⟩

/-- Along a run with a clock that does not go back, the answers are those of the specification. -/
theorem run_spec (ops : List (ℚ × LimiterOp)) (now : ℚ) (h : Agree C S now L H) (hclock : (now :: ops.map Prod.fst).Pairwise (· ≤ ·))
    {later : ℚ} (hlater : ∀ t ∈ now :: ops.map Prod.fst, t ≤ later) :
    (run C S ops L).1 = (LimiterSpec.run C S ops H).1 ∧
      Agree C S later (run C S ops L).2 (LimiterSpec.run C S ops H).2 := by
  induction ops generalizing now L H with
  | nil => exact ⟨rfl, fun scope => (h scope).mono (hlater now (by simp))⟩
  | cons p ops ih =>
    obtain ⟨t, op⟩ := p
    rw [List.map_cons, List.pairwise_cons] at hclock
    obtain ⟨hanswer, hagree⟩ := step_spec (fun scope => (h scope).mono (hclock.1 t (by simp))) op
    obtain ⟨hanswers, hlast⟩ := ih _ hagree hclock.2 fun u hu => hlater u (List.mem_cons_of_mem _ hu)
    exact ⟨by simp only [run, LimiterSpec.run, hanswer, hanswers], hlast⟩

end TracksAux

open TracksAux

/-- With a clock that does not go back, the limiter answers every operation as the sliding-window specification does. No
scope stores more than `max_buckets_per_scope` buckets, and a key that has a live event keeps its bucket, with exactly its
live events in it. -/
theorem inMemory_refines_spec (C : Clock) (S : LimiterSettings) (ops : List (ℚ × LimiterOp))
    (hcap : 1 ≤ S.maxBucketsPerScope) (hclock : (ops.map Prod.fst).Pairwise (· ≤ ·)) :
    (run C S ops Limiter.new).1 = (LimiterSpec.run C S ops fun _ => []).1 ∧
      ∀ scope, ((run C S ops Limiter.new).2.buckets scope).size ≤ S.maxBucketsPerScope ∧
        ∀ key now, (∀ p ∈ ops, p.1 ≤ now) →
          0 < LimiterSpec.count C S scope key now (LimiterSpec.run C S ops fun _ => []).2 →
          ∃ bucket, ((run C S ops Limiter.new).2.buckets scope).get? key = some bucket ∧
            (LimiterSpec.window C (S.windowOf scope)).alive now bucket =
              (LimiterSpec.window C (S.windowOf scope)).alive now
                (timesOf ((LimiterSpec.run C S ops fun _ => []).2 scope) key) := by
  -- the run may start at any time before its readings
  obtain ⟨start, hstart⟩ := (List.finite_toSet (ops.map Prod.fst)).bddBelow
  have hrun : ∀ later, (∀ p ∈ ops, p.1 ≤ later) → (run C S ops Limiter.new).1 = (LimiterSpec.run C S ops fun _ => []).1 ∧
      Agree C S later (run C S ops Limiter.new).2 (LimiterSpec.run C S ops fun _ => []).2 := by
    intro later hlater
    refine run_spec ops (min start later) (fun scope => tracks_empty _ (by omega) _)
      (List.pairwise_cons.2 ⟨fun t ht => (min_le_left _ _).trans (hstart ht), hclock⟩) fun t ht => ?_
    rcases List.mem_cons.1 ht with rfl | ht
    · exact min_le_right _ _
    · obtain ⟨p, hp, rfl⟩ := List.mem_map.1 ht
      exact hlater p hp
  obtain ⟨last, hlast⟩ := (List.finite_toSet (ops.map Prod.fst)).bddAbove
  have hend := hrun last fun p hp => hlast (List.mem_map.2 ⟨p, hp, rfl⟩)
  refine ⟨hend.1, fun scope => ⟨(hend.2 scope).bounded, fun key now hnow hlive => ?_⟩⟩
  have hagrees := ((hrun now hnow).2 scope).agrees key now (le_refl _)
  have hne : bucketOf ((run C S ops Limiter.new).2.buckets scope) key ≠ [] := by
    intro hnil
    rw [LimiterSpec.count, liveCount, ← hagrees, hnil] at hlive
    exact absurd hlive (by simp)
  obtain ⟨p, hp, rfl⟩ := List.mem_map.1 (mem_keys_of_bucketOf hne)
  rw [bucketOf_eq_of_mem hp] at hagrees
  exact ⟨p.2, OrderedDict.get?_eq_some.2 hp, hagrees⟩

/-- Three failures of one address and email with room for a single bucket, and the checks that follow. -/
theorem inMemory_refines_spec_at_cap :
    let S : LimiterSettings := ⟨300, 3600, 2, 20, 10, 5, 20, 1⟩
    let ops : List (ℚ × LimiterOp) :=
      [(0, .recordFailure ['a'] ['x'] true), (10, .recordFailure ['a'] ['x'] true), (20, .recordFailure ['b'] ['y'] true),
        (30, .isAllowed ['a'] ['x']), (30, .isAllowed ['b'] ['y'])]
    (run Clock.exact S ops Limiter.new).1 = [none, none, none, some false, some true] ∧
      (run Clock.exact S ops Limiter.new).1 = (LimiterSpec.run Clock.exact S ops fun _ => []).1 := by
  refine ⟨by decide +kernel, (inMemory_refines_spec _ _ _ (by decide) ?_).1⟩
  simp only [List.map_cons, List.map_nil]
  decide +kernel

end InMemory

end AuthService
