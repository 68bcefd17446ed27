import QuantaSwap.Maker.Ledger

/-!
# Rules for programs of the daemon

`Keeps` says that a program makes allowed requests only, and what holds when it ends or fails. There
is one rule for each request. Between the requests of a pass the record at hand is the one on disk.
-/

set_option autoImplicit false
set_option linter.unusedSectionVars false

open Lib Lib.Evm Lib.Program QuantaSwap.Htlc QuantaSwap.Htlc.V3

namespace QuantaSwap.Maker.Daemon

section

variable {A B : Type} [DecidableEq A] [DecidableEq B] [Zero A] [Zero B] (cfg : Config A B)

/-- Every request of `p` is allowed, `Q` holds of its value and `X` of its failure. The invariant
may be used at every state on the way. -/
def Keeps {α : Type} (Q : α → World A B → Prop) (X : Err → World A B → Prop) (p : Act A B α)
    (w : World A B) : Prop :=
  SafeX (fun s s' => Env cfg s s' ∧ Sound cfg s ∧ Sound cfg s')
    (fun s _ r b s' => operate cfg s r b s' ∧ Sound cfg s ∧ Sound cfg s') (Guard cfg) Q X p w

variable {cfg} {α β : Type} {Q Q' : α → World A B → Prop} {X X' : Err → World A B → Prop}
  {w w' v : World A B}

@[simp] theorem keeps_pure (a : α) : Keeps cfg Q X (pure a) w ↔ Q a w := safeX_pure a

@[simp] theorem keeps_throw (e : Err) : Keeps cfg Q X (throw e : Act A B α) w ↔ X e w :=
  safeX_throw e

theorem keeps_bind {R : β → World A B → Prop} {p : Act A B β} {f : β → Act A B α}
    (hp : Keeps cfg R X p w) (hf : ∀ b w', R b w' → Keeps cfg Q X (f b) w') :
    Keeps cfg Q X (p >>= f) w :=
  safeX_bind.mpr (SafeX.mono hp hf fun _ _ h => h)

theorem keeps_tryCatch {Y : Err → World A B → Prop} {p : Act A B α} {handle : Err → Act A B α}
    (hp : Keeps cfg Q Y p w) (hh : ∀ e w', Y e w' → Keeps cfg Q X (handle e) w') :
    Keeps cfg Q X (tryCatch p handle) w :=
  safeX_tryCatch.mpr (SafeX.mono hp (fun _ _ h => h) hh)

theorem keeps_map {R : β → World A B → Prop} {p : Act A B β} {f : β → α} (hp : Keeps cfg R X p w)
    (hf : ∀ b w', R b w' → Q (f b) w') : Keeps cfg Q X (f <$> p) w := by
  rw [map_eq_pure_bind]
  exact keeps_bind hp fun b w' h => (keeps_pure _).mpr (hf b w' h)

theorem Keeps.mono {p : Act A B α} (h : Keeps cfg Q X p w) (hQ : ∀ a w, Q a w → Q' a w)
    (hX : ∀ e w, X e w → X' e w) : Keeps cfg Q' X' p w :=
  SafeX.mono h hQ hX

theorem keeps_ofExcept {r : Except Err α} (hQ : ∀ a, r = .ok a → Q a w)
    (hX : ∀ e, r = .error e → X e w) : Keeps cfg Q X (ofExcept r) w := by
  cases r with
  | ok a => exact hQ a rfl
  | error e => exact hX e rfl

/-! ## How the world moves under a pass -/

/-- Only the chains have moved. -/
def Moved (cfg : Config A B) (w w' : World A B) : Prop :=
  ∃ is, w' = { w with legs := Lib.Run.run (Legs.step cfg.toTwoChains) w.legs is }

/-- What the reads of a pass rest on is as it was, or further on. -/
structure Later (cfg : Config A B) (w w' : World A B) : Prop where
  ticks : Relation.ReflTransGen cfg.ticks w.clock w'.clock
  legs : ∃ is, w'.legs = Lib.Run.run (Legs.step cfg.toTwoChains) w.legs is
  secrets : w'.secrets = w.secrets
  published : w'.published = w.published
  shown : w'.shown = w.shown
  heard : w.heard ⊆ w'.heard

theorem Moved.refl (w : World A B) : Moved cfg w w := ⟨[], rfl⟩

theorem Moved.clock (h : Moved cfg w w') : w'.clock = w.clock := by
  obtain ⟨is, rfl⟩ := h
  rfl

theorem Moved.later (h : Moved cfg w w') : Later cfg w w' := by
  obtain ⟨is, rfl⟩ := h
  exact ⟨.refl, ⟨is, rfl⟩, rfl, rfl, rfl, List.Subset.refl _⟩

theorem Later.refl (w : World A B) : Later cfg w w := (Moved.refl w).later

theorem Later.trans (h : Later cfg w v) (h' : Later cfg v w') : Later cfg w w' := by
  obtain ⟨is, his⟩ := h.legs
  obtain ⟨js, hjs⟩ := h'.legs
  refine ⟨h.ticks.trans h'.ticks, ⟨is ++ js, ?_⟩, h'.secrets.trans h.secrets,
    h'.published.trans h.published, h'.shown.trans h.shown, List.Subset.trans h.heard h'.heard⟩
  rw [Lib.Run.run_append, hjs, his]

theorem Later.extends (h : Later cfg w w') (l : LegKey) (k : B) :
    Extends (w.swap l k) (w'.swap l k) := by
  obtain ⟨is, his⟩ := h.legs
  have hswap : w'.swap l k =
      World.swap { w with legs := Lib.Run.run (Legs.step cfg.toTwoChains) w.legs is } l k := by
    unfold World.swap World.leg
    rw [his]
  rw [hswap]
  exact run_extends_swap w is l k

theorem SameHistory.later (h : SameHistory w w') : Later cfg w w' :=
  ⟨h.clock ▸ .refl, ⟨[], h.legs⟩, h.secrets, h.published, h.shown,
    h.heard ▸ List.Subset.refl _⟩

theorem moved_of_envs (hs : Sound cfg w)
    (h : Relation.ReflTransGen (fun s s' => Env cfg s s' ∧ Sound cfg s ∧ Sound cfg s') w w') :
    Moved cfg w w' ∧ Sound cfg w' := by
  have henv : Relation.ReflTransGen (Env cfg) w w' := by
    induction h with
    | refl => exact .refl
    | tail _ hstep ih => exact ih.tail hstep.1
  exact ⟨Env.run henv, hs.envs henv⟩

/-- What a request that is answered at once has to satisfy. -/
theorem keeps_request {r : Req A B α} {R : α → World A B → Prop} (hs : Sound cfg w)
    (hg : ∀ t, Moved cfg w t → Sound cfg t → Guard cfg t r)
    (hQ : ∀ t b w', Moved cfg w t → Sound cfg t → operate cfg t r b w' → Sound cfg w' →
      R b w') :
    ∀ t, Relation.ReflTransGen (fun s s' => Env cfg s s' ∧ Sound cfg s ∧ Sound cfg s') w t →
      Guard cfg t r ∧ ∀ b w', (operate cfg t r b w' ∧ Sound cfg t ∧ Sound cfg w') → R b w' := by
  intro t ht
  obtain ⟨hm, hst⟩ := moved_of_envs hs ht
  exact ⟨hg t hm hst, fun b w' ho => hQ t b w' hm hst ho.1 ho.2.2⟩

theorem keeps_demand {r : Req A B α} (hs : Sound cfg w)
    (hg : ∀ t, Moved cfg w t → Sound cfg t → Guard cfg t r)
    (hQ : ∀ t b w', Moved cfg w t → Sound cfg t → operate cfg t r b w' → Sound cfg w' →
      Q b w') : Keeps cfg Q X (demand r) w :=
  safeX_demand.mpr (keeps_request hs hg hQ)

theorem keeps_attempt {r : Req A B (Except Err α)} (hs : Sound cfg w)
    (hg : ∀ t, Moved cfg w t → Sound cfg t → Guard cfg t r)
    (hQ : ∀ t b w', Moved cfg w t → Sound cfg t → operate cfg t r (.ok b) w' →
      Sound cfg w' → Q b w')
    (hX : ∀ t e w', Moved cfg w t → Sound cfg t → operate cfg t r (.error e) w' →
      Sound cfg w' → X e w') : Keeps cfg Q X (attempt r) w := by
  refine safeX_attempt.mpr (keeps_request hs hg fun t b w' hm hst ho hw' => ?_)
  cases b with
  | ok b => exact hQ t b w' hm hst ho hw'
  | error e => exact hX t e w' hm hst ho hw'

/-! ## The record at hand -/

variable (cfg)

/-- The record at hand is the one on disk, and no other has changed since the pass began, when the
records were `d`. -/
structure Placed (d : String → Option (ManagedOrder A B)) (m : ManagedOrder A B) (w : World A B) :
    Prop where
  sound : Sound cfg w
  here : w.disk.get m.id = some m
  others : ∀ id, id ≠ m.id → w.disk.get id = d id

structure Here (d : String → Option (ManagedOrder A B)) (m : ManagedOrder A B) (w : World A B) :
    Prop extends Placed cfg d m w where
  followed : FollowedUp cfg w

/-- The pass over the order `id` is over. -/
structure Left (d : String → Option (ManagedOrder A B)) (id : String) (w : World A B) : Prop where
  sound : Sound cfg w
  others : ∀ id', id' ≠ id → w.disk.get id' = d id'
  followed : FollowedUp cfg w

variable {cfg} {d : String → Option (ManagedOrder A B)} {m m' : ManagedOrder A B} {id : String}

theorem Here.left (h : Here cfg d m w) : Left cfg d m.id w := ⟨h.sound, h.others, h.followed⟩

theorem Placed.issued (h : Placed cfg d m w) : m.id ∈ w.issued := (h.sound.entry _ _ h.here).1

theorem Placed.entry (h : Placed cfg d m w) : Entry cfg w m.id m := (h.sound.entry _ _ h.here).2

theorem followedUp_of_over (h : ∀ id t, w.tried id = some t → t.current = false) :
    FollowedUp cfg w := by
  intro _ id t ht hc
  rw [h id t ht] at hc
  cases hc

theorem settled_over (w : World A B) {id : String} {t : Withdrawal}
    (h : w.settled.tried id = some t) : t.current = false := by
  change (w.tried id).map _ = some t at h
  cases ht : w.tried id with
  | none => simp [ht] at h
  | some t' =>
    simp only [ht, Option.map_some, Option.some.injEq] at h
    rw [← h]

theorem interrupted_over (w : World A B) {id : String} {t : Withdrawal}
    (h : w.interrupted.tried id = some t) : t.current = false := by
  change (w.tried id).filter _ = some t at h
  rw [Option.filter_eq_some_iff] at h
  simpa using h.2

theorem World.OnRecord.same {key : LegKey × A × A} (h : w.OnRecord key) (hdisk : w'.disk = w.disk)
    (hemptied : w.emptied ⊆ w'.emptied) : w'.OnRecord key := by
  unfold World.OnRecord
  rw [hdisk]
  exact h.imp_right fun hkey => hemptied hkey

theorem FollowedUp.mono (h : FollowedUp cfg w) (htried : w'.tried = w.tried)
    (hrecorded : ∀ key, w.OnRecord key → w'.OnRecord key)
    (hdisk : ∀ id n, (w.tried id).isSome = true → w'.disk.get id = some n →
      ∃ n₀, w.disk.get id = some n₀ ∧ n.withdrawAttempts = n₀.withdrawAttempts ∧
        n.withdrawFirstRejectedAt = n₀.withdrawFirstRejectedAt ∧ n.asset = n₀.asset) :
    FollowedUp cfg w' := by
  intro hclock id t ht hc n hn hparked
  rw [htried] at ht
  obtain ⟨n₀, hn₀, ha, hf, hasset⟩ := hdisk id n (by simp [ht]) hn
  refine hrecorded _ ?_
  rw [hasset]
  refine h hclock id t ht hc n₀ hn₀ ?_
  unfold withdrawParked ManagedOrder.decision at hparked ⊢
  dsimp only at hparked ⊢
  rw [← ha, ← hf]
  exact hparked

theorem FollowedUp.same (h : FollowedUp cfg w) (htried : w'.tried = w.tried)
    (hemptied : w.emptied ⊆ w'.emptied) (hdisk : w'.disk = w.disk) : FollowedUp cfg w' :=
  h.mono htried (fun _ h => h.same hdisk hemptied)
    (by rw [hdisk]; exact fun id n _ hn => ⟨n, hn, rfl, rfl, rfl⟩)

theorem FollowedUp.env (h : FollowedUp cfg w) (hm : Env cfg w w') : FollowedUp cfg w' := by
  obtain ⟨i, -, rfl⟩ := hm
  exact h.same rfl (List.Subset.refl _) rfl

theorem followedUp_crash (h : Crash cfg w w') : FollowedUp cfg w' := by
  obtain ⟨t, -, rfl⟩ := h
  exact followedUp_of_over fun id t ht => interrupted_over w ht

theorem Here.same (h : Here cfg d m w) (hs : Sound cfg w') (hd : w'.disk = w.disk)
    (ht : w'.tried = w.tried) (hr : w.emptied ⊆ w'.emptied) : Here cfg d m w' :=
  ⟨⟨hs, hd ▸ h.here, hd ▸ h.others⟩, h.followed.same ht hr hd⟩

theorem Here.moved (h : Here cfg d m w) (hm : Moved cfg w w') (hs : Sound cfg w') :
    Here cfg d m w' := by
  obtain ⟨is, rfl⟩ := hm
  exact h.same hs rfl rfl (List.Subset.refl _)

theorem Placed.moved (h : Placed cfg d m w) (hm : Moved cfg w w') (hs : Sound cfg w') :
    Placed cfg d m w' := by
  obtain ⟨is, rfl⟩ := hm
  exact ⟨hs, h.here, h.others⟩

/-! ## Requests that leave the records and the history alone -/

/-- Nothing has happened that a pass goes by. -/
structure Calm (cfg : Config A B) (w w' : World A B) : Prop extends Later cfg w w' where
  disk : w'.disk = w.disk
  tried : w'.tried = w.tried
  emptied : w.emptied ⊆ w'.emptied

theorem Calm.refl (w : World A B) : Calm cfg w w := ⟨.refl w, rfl, rfl, List.Subset.refl _⟩

theorem Calm.trans (h : Calm cfg w v) (h' : Calm cfg v w') : Calm cfg w w' :=
  ⟨h.toLater.trans h'.toLater, h'.disk.trans h.disk, h'.tried.trans h.tried,
    List.Subset.trans h.emptied h'.emptied⟩

theorem Calm.onRecord (h : Calm cfg w w') {key : LegKey × A × A} (hkey : w.OnRecord key) :
    w'.OnRecord key :=
  hkey.same h.disk h.emptied

theorem Moved.calm (h : Moved cfg w w') : Calm cfg w w' := by
  have hl := h.later
  obtain ⟨is, rfl⟩ := h
  exact ⟨hl, rfl, rfl, List.Subset.refl _⟩

theorem Placed.calm (h : Placed cfg d m w) (hc : Calm cfg w w') (hs : Sound cfg w') :
    Placed cfg d m w' :=
  ⟨hs, hc.disk ▸ h.here, hc.disk ▸ h.others⟩

theorem Here.calm (h : Here cfg d m w) (hc : Calm cfg w w') (hs : Sound cfg w') :
    Here cfg d m w' :=
  h.same hs hc.disk hc.tried hc.emptied

theorem calm_clock {t : Int} (h : cfg.ticks w.clock t) : Calm cfg w { w with clock := t } :=
  ⟨⟨.single h, ⟨[], rfl⟩, rfl, rfl, rfl, List.Subset.refl _⟩, rfl, rfl, List.Subset.refl _⟩

theorem calm_hear (w : World A B) (heard : List (Heard A B)) : Calm cfg w (w.hear heard) :=
  ⟨⟨.refl, ⟨[], rfl⟩, rfl, rfl, rfl, List.subset_append_right _ _⟩, rfl, rfl, List.Subset.refl _⟩

theorem calm_balanceRead (w : World A B) (key : LegKey × A × A) (balance : Option Nat) :
    Calm cfg w (w.balanceRead key balance) := by
  obtain ⟨hh, -, hdisk, -, htried, hemptied⟩ := balanceRead_same w key balance
  exact ⟨hh.later, hdisk, htried, hemptied⟩

theorem keeps_silent {r : Req A B α} (hs : Sound cfg w) (hg : ∀ w, Guard cfg w r)
    (hr : ∀ w b w', operate cfg w r b w' → Calm cfg w w')
    (hQ : ∀ b w', Calm cfg w w' → Sound cfg w' → Q b w') : Keeps cfg Q X (demand r) w :=
  keeps_demand hs (fun t _ _ => hg t) fun _ b w' hm _ ho hs' =>
    hQ b w' (hm.calm.trans (hr _ b w' ho)) hs'

theorem keeps_silent_attempt {r : Req A B (Except Err α)} (hs : Sound cfg w)
    (hg : ∀ w, Guard cfg w r) (hr : ∀ w b w', operate cfg w r b w' → Calm cfg w w')
    (hQ : ∀ t b w', Calm cfg w t → Sound cfg t → operate cfg t r (.ok b) w' → Calm cfg w w' →
      Sound cfg w' → Q b w')
    (hX : ∀ t e w', operate cfg t r (.error e) w' → Calm cfg w w' → Sound cfg w' → X e w') :
    Keeps cfg Q X (attempt r) w :=
  keeps_attempt hs (fun t _ _ => hg t)
    (fun t b w' hm hst ho hs' => hQ t b w' hm.calm hst ho (hm.calm.trans (hr _ _ w' ho)) hs')
    fun t e w' hm _ ho hs' => hX t e w' ho (hm.calm.trans (hr _ _ w' ho)) hs'

theorem keeps_nowS {Q : Int → World A B → Prop} (hs : Sound cfg w)
    (hQ : ∀ t w', Calm cfg w w' → Sound cfg w' → w'.clock = t → Q t w') :
    Keeps cfg Q X nowS w :=
  keeps_demand hs (fun _ _ _ => trivial) fun t b w' hm _ ho hs' => by
    obtain ⟨hticks, rfl⟩ := ho
    exact hQ b _ (hm.calm.trans (calm_clock hticks)) hs' rfl

/-! ## Writing the record -/

theorem keeps_write {Q : Unit → World A B → Prop} (hh : Placed cfg d m w) (hid : m'.id = m.id)
    (hc : ∀ t, Moved cfg w t → Change cfg t m m')
    (hQ : ∀ w', Placed cfg d m' w' → Later cfg w w' → w'.tried = w.tried →
      (∀ key, w.OnRecord key → w'.OnRecord key) → Q () w')
    (hX : ∀ e w', (e = .poisoned ∨ e.ofWrite) → Left cfg d m.id w' → X e w') :
    Keeps cfg Q X (attempt (.upsert m')) w := by
  refine keeps_attempt hh.sound ?_ ?_ ?_
  · intro t hm hst
    have ht := hh.moved hm hst
    exact .inr ⟨m, hid ▸ ht.here, hc t hm⟩
  · intro t b w' hm hst ho hs'
    have ht := hh.moved hm hst
    have hw := upsert_wrote hst.files ho
    obtain ⟨hdisk, htried, -⟩ := hw.ok rfl
    have hcalm := hm.calm
    refine hQ w' ⟨hs', by rw [hdisk, if_pos rfl], fun id hne => ?_⟩
      (hm.later.trans hw.history.later) (htried.trans hcalm.tried) ?_
    · rw [hdisk, if_neg (Ne.symm hne)]
      exact ht.others id (hid ▸ hne)
    · exact fun key hkey => hw.onRecord key (hcalm.onRecord hkey)
  · intro t e w' hm hst ho hs'
    have ht := hh.moved hm hst
    have hw := upsert_wrote hst.files ho
    obtain ⟨he, htried⟩ := hw.error e rfl
    refine hX e w' he ⟨hs', fun id hne => ?_, followedUp_of_over fun id t' ht' => ?_⟩
    · obtain heq | heq := hw.disk id
      · rw [heq, ht.others id hne]
      · rw [heq, if_neg (fun h => hne (h.symm.trans hid)), ht.others id hne]
    · exact interrupted_over _ (htried ▸ ht')

theorem Placed.disk (h : Placed cfg d m w) (h' : Placed cfg d m' w') (hid : m'.id = m.id)
    (hsame : m'.withdrawAttempts = m.withdrawAttempts ∧
      m'.withdrawFirstRejectedAt = m.withdrawFirstRejectedAt ∧ m'.asset = m.asset) {id : String}
    {n : ManagedOrder A B} (hn : w'.disk.get id = some n) : ∃ n₀, w.disk.get id = some n₀ ∧
      n.withdrawAttempts = n₀.withdrawAttempts ∧
      n.withdrawFirstRejectedAt = n₀.withdrawFirstRejectedAt ∧ n.asset = n₀.asset := by
  by_cases hne : id = m.id
  · subst hne
    rw [← hid, h'.here] at hn
    cases hn
    exact ⟨m, h.here, hsame⟩
  · rw [h'.others id (hid ▸ hne), ← h.others id hne] at hn
    exact ⟨n, hn, rfl, rfl, rfl⟩

theorem keeps_upsert {Q : Unit → World A B → Prop} (hh : Here cfg d m w) (hid : m'.id = m.id)
    (hc : ∀ t, Moved cfg w t → Change cfg t m m')
    (hsame : m'.withdrawAttempts = m.withdrawAttempts ∧
      m'.withdrawFirstRejectedAt = m.withdrawFirstRejectedAt ∧ m'.asset = m.asset)
    (hQ : ∀ w', Here cfg d m' w' → Later cfg w w' → Q () w')
    (hX : ∀ e w', (e = .poisoned ∨ e.ofWrite) → Left cfg d m.id w' → X e w') :
    Keeps cfg Q X (attempt (.upsert m')) w := by
  refine keeps_write hh.toPlaced hid hc (fun w' h hl htried hrecorded => ?_) hX
  exact hQ w' ⟨h, hh.followed.mono htried hrecorded
    fun id n _ hn => hh.toPlaced.disk h hid hsame hn⟩ hl

theorem keeps_delete {Q : Unit → World A B → Prop} {why : Retire} (hh : Here cfg d m w)
    (hr : ∀ t, Moved cfg w t → Sound cfg t → Retires cfg t m why)
    (hQ : ∀ w', Left cfg d m.id w' → Q () w')
    (hX : ∀ e w', (e = .poisoned ∨ e.ofWrite) → Left cfg d m.id w' → X e w') :
    Keeps cfg Q X (attempt (.delete m.id why)) w := by
  have hothers : ∀ {t : World A B} {r : Except Err Unit} {w' : World A B}, Here cfg d m t →
      Wrote t (t.memory.delete m.id) (fun id' => if m.id = id' then none else t.disk.get id') r w' →
      ∀ id, id ≠ m.id → w'.disk.get id = d id := by
    intro t r w' ht hw id hne
    obtain heq | heq := hw.disk id
    · rw [heq, ht.others id hne]
    · rw [heq, if_neg (Ne.symm hne), ht.others id hne]
  refine keeps_attempt hh.sound ?_ ?_ ?_
  · intro t hm hst
    have ht := hh.moved hm hst
    exact ⟨m, ht.here, hr t hm hst⟩
  · intro t b w' hm hst ho hs'
    have ht := hh.moved hm hst
    have hw := delete_wrote hst.files ho
    obtain ⟨hdisk, htried, -⟩ := hw.ok rfl
    refine hQ w' ⟨hs', hothers ht hw, ht.followed.mono htried hw.onRecord fun id n _ hn => ?_⟩
    rw [hdisk] at hn
    split at hn
    · cases hn
    · exact ⟨n, hn, rfl, rfl, rfl⟩
  · intro t e w' hm hst ho hs'
    have ht := hh.moved hm hst
    have hw := delete_wrote hst.files ho
    obtain ⟨he, htried⟩ := hw.error e rfl
    exact hX e w' he ⟨hs', hothers ht hw, followedUp_of_over fun id t' ht' =>
      interrupted_over _ (htried ▸ ht')⟩

/-! ## Requests that add to the history -/

theorem keeps_post {Q : OrderView A B → World A B → Prop} {st : Statement A B}
    (hh : Here cfg d m w) (hp : m.protocol.isSome = true) (hst : m.Holds cfg st)
    (hQ : ∀ row w', Here cfg d m w' → Later cfg w w' → Q row w')
    (hX : ∀ e w', Here cfg d m w' → Later cfg w w' → X e w') :
    Keeps cfg Q X (attempt (.post m.id st)) w := by
  refine keeps_attempt hh.sound ?_ ?_ ?_
  · intro t hm hs
    exact ⟨m, (hh.moved hm hs).here, hp, hst⟩
  · intro t row w' hm hs ho hs'
    obtain ⟨-, rfl⟩ := ho
    exact hQ row _ ((hh.moved hm hs).same hs' rfl rfl (List.Subset.refl _))
      (hm.later.trans ⟨.refl, ⟨[], rfl⟩, rfl, rfl, rfl, List.Subset.refl _⟩)
  · intro t e w' hm hs ho hs'
    obtain ⟨-, rfl⟩ := ho
    exact hX e _ ((hh.moved hm hs).same hs' rfl rfl (List.Subset.refl _))
      (hm.later.trans ⟨.refl, ⟨[], rfl⟩, rfl, rfl, rfl, List.Subset.refl _⟩)

theorem keeps_get {Q : OrderView A B → World A B → Prop} (hh : Here cfg d m w)
    (hQ : ∀ row w', Here cfg d m w' → Later cfg w w' → Q row w')
    (hX : ∀ e w', e.ofBook → Here cfg d m w' → Later cfg w w' → X e w') :
    Keeps cfg Q X (attempt (.get m.id)) w := by
  have hover : ∀ {t w' : World A B}, Moved cfg w t → Sound cfg t → w' = t.settled → Sound cfg w' →
      Here cfg d m w' ∧ Later cfg w w' := by
    rintro t w' hm hs rfl hs'
    have ht := hh.moved hm hs
    exact ⟨⟨⟨hs', ht.here, ht.others⟩, followedUp_of_over fun id t' ht' => settled_over t ht'⟩,
      hm.later.trans ⟨.refl, ⟨[], rfl⟩, rfl, rfl, rfl, List.Subset.refl _⟩⟩
  refine keeps_attempt hh.sound ?_ ?_ ?_
  · exact fun t hm hs => (hh.moved hm hs).followed
  · intro t row w' hm hs ho hs'
    obtain ⟨hhere, hlater⟩ := hover hm hs ho.2 hs'
    exact hQ row w' hhere hlater
  · intro t e w' hm hs ho hs'
    obtain ⟨hhere, hlater⟩ := hover hm hs ho.2 hs'
    exact hX e w' (ho.1 e rfl) hhere hlater

theorem keeps_newSecret {Q : B → World A B → Prop} (hh : Here cfg d m w)
    (hQ : ∀ p w', Here cfg d m w' → (m.id, p) ∈ w'.secrets → w'.clock = w.clock →
      w'.heard = w.heard → Q p w') :
    Keeps cfg Q X (demand (.newSecret m.id)) w := by
  refine keeps_demand hh.sound ?_ ?_
  · exact fun t hm hs => (hh.moved hm hs).issued
  · intro t p w' hm hs ho hs'
    obtain ⟨-, -, -, rfl⟩ := ho
    obtain ⟨is, rfl⟩ := hm
    exact hQ p _ ((hh.moved ⟨is, rfl⟩ hs).same hs' rfl rfl (List.Subset.refl _))
      List.mem_cons_self rfl rfl

theorem keeps_announceHashlock {Q : OrderView A B → World A B → Prop} {token : String} {k : B}
    {t1 t2 : Int} (hh : Here cfg d m w) (hp : m.protocol = none) (hk : m.hashlock = some k)
    (hQ : ∀ row w', Here cfg d m w' → Relation.ReflTransGen cfg.ticks w.clock w'.clock → Q row w')
    (hX : ∀ e w', Left cfg d m.id w' → X e w') :
    Keeps cfg Q X (attempt (.announceHashlock m.id token k t1 t2)) w := by
  refine keeps_attempt hh.sound ?_ ?_ ?_
  · exact fun t hm hs => ⟨m, (hh.moved hm hs).here, hp, hk⟩
  · intro t row w' hm hs ho hs'
    obtain ⟨-, rfl⟩ := ho
    exact hQ row _ ((hh.moved hm hs).same hs' rfl rfl (List.Subset.refl _)) hm.later.ticks
  · intro t e w' hm hs ho hs'
    obtain ⟨-, rfl⟩ := ho
    exact hX e _ ((hh.moved hm hs).same hs' rfl rfl (List.Subset.refl _)).left

theorem keeps_send {Q : Except SendError Unit → World A B → Prop} {l : LegKey} {tx : Tx A B}
    {value : Nat} (hh : Here cfg d m w) (hw : tx.withdraws = false)
    (hmay : ∀ t, Moved cfg w t → MaySend t m l tx value)
    (hQ : ∀ r w', Here cfg d m w' → Q r w') :
    Keeps cfg Q X (demand (.send m.id l tx value)) w := by
  refine keeps_demand hh.sound ?_ ?_
  · exact fun t hm hs => ⟨m, (hh.moved hm hs).here, hmay t hm⟩
  · intro t r w' hm hs ho hs'
    obtain rfl : w' = _ := ho
    refine hQ r _ ((hh.moved hm hs).same hs' rfl ?_ (List.Subset.refl _))
    funext id'
    unfold World.afterSend
    simp [hw]

theorem keeps_sendTx {Q : Unit → World A B → Prop} {l : LegKey} {tx : Tx A B} {value : Nat}
    (hh : Here cfg d m w) (hw : tx.withdraws = false)
    (hmay : ∀ t, Moved cfg w t → MaySend t m l tx value) (hQ : ∀ w', Here cfg d m w' → Q () w')
    (hX : ∀ e w', Left cfg d m.id w' → X (.error e) w') :
    Keeps cfg Q X (sendTx m.id l tx value) w := by
  unfold sendTx
  refine keeps_bind (R := fun _ w' => Here cfg d m w') (keeps_send hh hw hmay fun _ _ h => h) ?_
  intro r w' hw'
  cases r with
  | ok _ => exact (keeps_pure _).mpr (hQ w' hw')
  | error e => exact (keeps_throw _).mpr (hX _ w' hw'.left)

theorem keeps_recordStrandedCredit {Q : Unit → World A B → Prop} {e : StrandedCredit A B}
    (hh : Placed cfg d m w) (hparked : e.parkedAt = w.clock)
    (hQ : ∀ t w', Moved cfg w t → Placed cfg d m w' →
      Relation.ReflTransGen cfg.ticks t.clock w'.clock → (∀ key, t.OnRecord key → w'.OnRecord key) →
      ((∀ id' t', w'.tried id' = some t' → t'.current = false) ∨
        w'.tried = t.tried ∧ w'.OnRecord e.key) → Q () w')
    (hX : ∀ err w', (err = .poisoned ∨ err.ofWrite) → Left cfg d m.id w' → X err w') :
    Keeps cfg Q X (attempt (.recordStrandedCredit e)) w := by
  refine keeps_attempt hh.sound (fun t hm _ => hparked.trans hm.clock.symm) ?_ ?_
  · intro t b w' hm hs ho hs'
    have ht := hh.moved hm hs
    obtain ⟨rfl, -⟩ | ⟨-, rfl, hrecord, hkey, -⟩ | ⟨hw, hkey⟩ := record_cases hs.files ho
    · exact hQ t _ hm ⟨hs', ht.here, ht.others⟩ .refl (fun _ h => h)
        (.inl fun id' t' ht' => interrupted_over t ht')
    · exact hQ t _ hm ⟨hs', ht.here, ht.others⟩ .refl hrecord (.inr ⟨rfl, hkey⟩)
    · obtain ⟨hdisk, htried, -⟩ := hw.ok rfl
      exact hQ t w' hm ⟨hs', by rw [hdisk]; exact ht.here,
        fun id hne => by rw [hdisk]; exact ht.others id hne⟩ hw.history.later.ticks hw.onRecord
        (.inr ⟨htried, hkey rfl⟩)
  · intro t err w' hm hs ho hs'
    have ht := hh.moved hm hs
    obtain ⟨rfl, hread⟩ | ⟨-, -, -, -, hok⟩ | ⟨hw, -⟩ := record_cases hs.files ho
    · cases hread
      exact hX _ _ (.inl rfl) ⟨hs', ht.others, followedUp_of_over fun id t' ht' =>
        interrupted_over t ht'⟩
    · cases hok
    · obtain ⟨he, htried⟩ := hw.error err rfl
      refine hX err w' he ⟨hs', fun id hne => ?_, followedUp_of_over fun id t' ht' =>
        interrupted_over _ (htried ▸ ht')⟩
      exact ((hw.disk id).elim (fun h => h) (fun h => h)).trans (ht.others id hne)

end

end QuantaSwap.Maker.Daemon
