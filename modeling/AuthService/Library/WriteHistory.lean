import AuthService.Library.ReadCommitted

/-!
# Histories of writes

What a thread sees is made by a sequence of writes: those that are committed, and those of its own transaction. Transactions
that are open at the same time hold their locks on different keys. So a relation between the earlier and the later writes of
these sequences survives the commits of all threads when it holds of any two writes that share no key.
-/

namespace ReadCommitted

variable {D : Database} {i j : Nat} {db db' : Db D} {a : Act D} {r : Except D.Err (Result D a)}

/-- The writes that thread `i` sees, with the threads that made them. -/
def Db.history (db : Db D) (i : Nat) : List (Nat × D.Write) := db.journal ++ (db.log i).map fun w => (i, w)

theorem Db.mem_history {x : Nat × D.Write} : x ∈ db.history i ↔ x ∈ db.journal ∨ ∃ w ∈ db.log i, (i, w) = x := by
  rw [Db.history, List.mem_append, List.mem_map]

theorem Db.history_eq {l : List D.Write} (hlog : db.log i = l) : db.history i = db.journal ++ l.map fun w => (i, w) := by
  rw [Db.history, hlog]

/-! ## What the writes make of the first store -/

/-- The store is what the committed writes make of a first store. -/
def Replays (S : D.Store) (db : Db D) : Prop := db.store = applyAll (db.journal.map Prod.snd) S

/-- What a thread sees is its history applied to the first tables. -/
theorem Replays.view {S : D.Store} (h : Replays S db) (i : Nat) : db.view i = applyAll ((db.history i).map Prod.snd) S := by
  have hlog : (db.log i).map (Prod.snd ∘ fun w => (i, w)) = db.log i := List.map_id _
  rw [Db.view, h, Db.history, List.map_append, List.map_map, hlog, applyAll_append]

/-- An effect keeps the tables the replay of the journal. -/
theorem Replays.effect {S : D.Store} (h : Replays S db) (he : Effect i db a r db') : Replays S db' := by
  rcases he.evolves with ⟨_, _, hstore, hjournal, -⟩ | ⟨hstore, hjournal, -⟩ | ⟨-, hstore, hjournal, -⟩
  · rw [Replays, hstore, hjournal]
    exact h
  · rw [Replays, hstore, hjournal]
    exact h
  · rw [Replays, hstore, hjournal]
    exact h.view i

/-! ## What an action adds -/

/-- The writes that an action may add to its transaction. -/
def Act.mayWrite : Act D → D.Write → Prop
  | .insert v, w => v = w
  | .finish s _, w => ∃ S k, k ∈ D.rows s S ∧ D.change s k = some w
  | _, _ => False

/-- An action makes no writes but those it may make. -/
theorem Writes.mayWrite {ws : List D.Write} (h : Writes i db a ws) {w : D.Write} (hw : w ∈ ws) : a.mayWrite w := by
  cases h with
  | none => exact absurd hw List.not_mem_nil
  | insert v _ _ => exact (List.mem_singleton.1 hw).symm
  | finish s found _ =>
    obtain ⟨k, hk, hchange⟩ := List.mem_filterMap.1 hw
    exact ⟨db.view i, k, (mem_of_mem_stillThere hk).2, hchange⟩

/-- What an action asks of the world: nothing, or one call with a reply or an error. -/
theorem Effect.calls (he : Effect i db a r db') :
    db'.calls = db.calls ∧ db'.env = db.env ∨
      ∃ x, a = .ext x ∧ ((∃ e, db'.calls = db.calls ++ [⟨i, x, .error e⟩] ∧ db'.env = db.env) ∨
        db'.calls = db.calls ++ [⟨i, x, (D.reply i x db.env).1⟩] ∧ db'.env = (D.reply i x db.env).2) := by
  cases he with
  | ext x => exact Or.inr ⟨x, rfl, Or.inr ⟨rfl, rfl⟩⟩
  | fault a e =>
    cases a with
    | ext x => exact Or.inr ⟨x, rfl, Or.inl ⟨e, rfl, rfl⟩⟩
    | _ => exact Or.inl ⟨rfl, rfl⟩
  | _ => exact Or.inl ⟨rfl, rfl⟩

/-- A call is on record with its reply. -/
theorem Effect.called {x : D.Ext} {y : Except D.Err (D.Reply x)} (he : Effect i db (.ext x) y db') :
    (⟨i, x, y⟩ : Call D) ∈ db'.calls := by
  cases he with
  | ext x => exact List.mem_append_right _ (List.mem_singleton_self _)
  | fault a e => exact List.mem_append_right _ (List.mem_singleton_self _)

/-- What is committed and what was asked stays. -/
structure Later (db db' : Db D) : Prop where
  journal : db.journal <+: db'.journal
  calls : db.calls <+: db'.calls

/-- An effect never takes back a committed write. -/
theorem Effect.later (he : Effect i db a r db') : Later db db' := by
  constructor
  · rcases he.evolves with ⟨_, _, -, hjournal, -⟩ | ⟨-, hjournal, -⟩ | ⟨-, -, hjournal, -⟩
    · exact hjournal ▸ List.prefix_refl _
    · exact hjournal ▸ List.prefix_refl _
    · exact hjournal ▸ List.prefix_append _ _
  · rcases he.calls with ⟨hcalls, -⟩ | ⟨x, -, ⟨e, hcalls, -⟩ | ⟨hcalls, -⟩⟩
    · exact hcalls ▸ List.prefix_refl _
    · exact hcalls ▸ List.prefix_append _ _
    · exact hcalls ▸ List.prefix_append _ _

/-- Another thread's step never takes back a committed write. -/
theorem Frame.later (h : Frame i db db') : Later db db' := by
  obtain ⟨js, hjournal, -, -⟩ := h.commits
  obtain ⟨xs, hcalls, -⟩ := h.calls
  exact ⟨⟨js, hjournal.symm⟩, ⟨xs, hcalls.symm⟩⟩

/-! ## What holds of the writes -/

/-- A history after an action: the earlier part of it was seen by the thread or by the one that acted, and the rest is new. -/
theorem Effect.mem_history (he : Effect i db a r db') {x : Nat × D.Write} (hx : x ∈ db'.history j) :
    (∃ k, x ∈ db.history k) ∨ ∃ ws, Writes i db a ws ∧ ∃ w ∈ ws, (i, w) = x := by
  have hold : ∀ {k}, x ∈ db.history k → (∃ k, x ∈ db.history k) ∨ ∃ ws, Writes i db a ws ∧ ∃ w ∈ ws, (i, w) = x :=
    fun hk => Or.inl ⟨_, hk⟩
  have hlater : ∀ {l}, db'.log = Function.update db.log i l → (∃ w ∈ db'.log j, (j, w) = x) →
      (∃ w ∈ l, (i, w) = x) ∨ x ∈ db.history j := by
    rintro l hlog ⟨w, hw, hx⟩
    rw [hlog] at hw
    by_cases hji : j = i
    · subst hji
      rw [Function.update_self] at hw
      exact Or.inl ⟨w, hw, hx⟩
    · rw [Function.update_of_ne hji] at hw
      exact Or.inr (Db.mem_history.2 (Or.inr ⟨w, hw, hx⟩))
  rcases he.evolves with ⟨ws, hws, -, hjournal, hlog⟩ | ⟨-, hjournal, hlog⟩ | ⟨-, -, hjournal, hlog⟩
  · rcases Db.mem_history.1 hx with hx | hx
    · exact hold (k := i) (Db.mem_history.2 (Or.inl (hjournal ▸ hx)))
    · rcases hlater hlog hx with ⟨w, hw, rfl⟩ | hx
      · rcases List.mem_append.1 hw with hw | hw
        · exact hold (Db.mem_history.2 (Or.inr ⟨w, hw, rfl⟩))
        · exact Or.inr ⟨ws, hws, w, hw, rfl⟩
      · exact hold hx
  · rcases Db.mem_history.1 hx with hx | hx
    · exact hold (k := i) (Db.mem_history.2 (Or.inl (hjournal ▸ hx)))
    · rcases hlater hlog hx with ⟨w, hw, -⟩ | hx
      · exact absurd hw List.not_mem_nil
      · exact hold hx
  · rcases Db.mem_history.1 hx with hx | hx
    · rw [hjournal] at hx
      exact hold (k := i) hx
    · rcases hlater hlog hx with ⟨w, hw, -⟩ | hx
      · exact absurd hw List.not_mem_nil
      · exact hold hx

/-- What holds of the writes of an action holds of all writes. -/
theorem forall_history {P : Nat × D.Write → Prop} (h : ∀ j, ∀ x ∈ db.history j, P x) (he : Effect i db a r db')
    (hnew : ∀ ws, Writes i db a ws → ∀ w ∈ ws, P (i, w)) : ∀ j, ∀ x ∈ db'.history j, P x := by
  intro j x hx
  rcases he.mem_history hx with ⟨k, hk⟩ | ⟨ws, hws, w, hw, rfl⟩
  · exact h k x hk
  · exact hnew ws hws w hw

/-! ## What holds between the writes -/

/-- Open transactions share no key. -/
theorem Guarded.apart (h : Guarded db) (hij : i ≠ j) {w v : D.Write} (hw : w ∈ db.log i) (hv : v ∈ db.log j) :
    ∀ k ∈ D.keys w, k ∉ D.keys v := by
  intro k hk hk'
  have howner := h i w hw k hk
  rw [h j v hv k hk'] at howner
  exact hij (Option.some.inj howner).symm

variable {R : Nat × D.Write → Nat × D.Write → Prop}

/-- A relation between the earlier and the later writes that a thread sees, whatever the other threads commit meanwhile. -/
theorem pairwise_history (hapart : ∀ x y, (∀ k ∈ D.keys x.2, k ∉ D.keys y.2) → R x y) (hg : Guarded db)
    (h : ∀ j, (db.history j).Pairwise R) (he : Effect i db a r db')
    (hnew : ∀ ws, Writes i db a ws → (db.history i ++ ws.map fun w => (i, w)).Pairwise R) : ∀ j, (db'.history j).Pairwise R := by
  intro j
  have hjournal0 : db.journal.Pairwise R := (List.pairwise_append.1 (h i)).1
  rcases he.evolves with ⟨ws, hws, -, hjournal, hlog⟩ | ⟨-, hjournal, hlog⟩ | ⟨-, -, hjournal, hlog⟩
  · by_cases hji : j = i
    · subst hji
      have hnew' := hnew ws hws
      rw [Db.history, hjournal, hlog, Function.update_self, List.map_append, ← List.append_assoc]
      exact hnew'
    · rw [Db.history, hjournal, hlog, Function.update_of_ne hji]
      exact h j
  · by_cases hji : j = i
    · subst hji
      rw [Db.history, hjournal, hlog, Function.update_self, List.map_nil, List.append_nil]
      exact hjournal0
    · rw [Db.history, hjournal, hlog, Function.update_of_ne hji]
      exact h j
  · by_cases hji : j = i
    · subst hji
      rw [Db.history, hjournal, hlog, Function.update_self, List.map_nil, List.append_nil]
      exact h j
    · rw [Db.history, hjournal, hlog, Function.update_of_ne hji, List.pairwise_append]
      obtain ⟨-, hopen, hcross⟩ := List.pairwise_append.1 (h j)
      refine ⟨h i, hopen, fun x hx y hy => ?_⟩
      rcases List.mem_append.1 hx with hx | hx
      · exact hcross x hx y hy
      · -- what `i` commits and what `j` has open are locked by different threads
        obtain ⟨w, hw, rfl⟩ := List.mem_map.1 hx
        obtain ⟨v, hv, rfl⟩ := List.mem_map.1 hy
        exact hapart _ _ (hg.apart (Ne.symm hji) hw hv)

end ReadCommitted
