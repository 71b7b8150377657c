import Expensea.Lib.Interleave
import Mathlib.Data.List.Nodup

namespace Txn

/-!
# Registries

Tables whose rows are added once and then stand: a row has a primary key and a unique key, and a
transaction that adds it holds a lock for each.  What may change of a row is left out of it, so
that an update in place leaves the registry as it was.

* `Registry` — the rows of some tables, with the locks of a row;
* `Registry.Ok`, `Registry.Extends`, `Registry.Adds` — distinct keys, what a session relies on,
  what a commit does;
* `Registry.discipline` — the discipline they make, with what the results say of the rows;
* `Registry.Knows` — a session that has added rows under their locks, and what it knows;
* `Registry.Triple` — pre- and postconditions of a program, with the frame built in;
* `Registry.tells_of_reachable` — what a result tells goes on holding.
-/

/-- The rows of some tables, and the locks of a row. -/
structure Registry (G L I T : Type) where
  rows : T → G → List I
  table : I → T
  primary : I → L
  unique : I → L

namespace Registry

variable {G L I T ε α β ι : Type} (R : Registry G L I T)

/-- The keys of each table are distinct. -/
structure Ok (g : G) : Prop where
  primary : ∀ t, ((R.rows t g).map R.primary).Nodup
  unique : ∀ t, ((R.rows t g).map R.unique).Nodup

/-- The rows are the same. -/
def Same (g g' : G) : Prop := ∀ t, R.rows t g' = R.rows t g

/-- What may happen while a session holds the locks `h`: rows are added, of other keys. -/
def Extends (h : List L) (g g' : G) : Prop :=
  ∀ t, ∃ new, R.rows t g' = R.rows t g ++ new ∧ ∀ i ∈ new, R.primary i ∉ h ∧ R.unique i ∉ h

/-- What a commit under the locks `h` does: rows are added, of locked keys. -/
def Adds (h : List L) (g g' : G) : Prop :=
  ∀ t, ∃ new, R.rows t g' = R.rows t g ++ new ∧ ∀ i ∈ new, R.primary i ∈ h ∧ R.unique i ∈ h

variable {R} {h : List L} {g g' g'' : G}

theorem Ok.eq_of_primary (hg : R.Ok g) {t : T} {i j : I} (hi : i ∈ R.rows t g)
    (hj : j ∈ R.rows t g) (heq : R.primary i = R.primary j) : i = j :=
  List.inj_on_of_nodup_map (hg.primary t) hi hj heq

theorem Ok.eq_of_unique (hg : R.Ok g) {t : T} {i j : I} (hi : i ∈ R.rows t g)
    (hj : j ∈ R.rows t g) (heq : R.unique i = R.unique j) : i = j :=
  List.inj_on_of_nodup_map (hg.unique t) hi hj heq

theorem Ok.of_same (hg : R.Ok g) (hsame : R.Same g g') : R.Ok g' where
  primary t := by
    rw [hsame t]
    exact hg.primary t
  unique t := by
    rw [hsame t]
    exact hg.unique t

theorem Extends.of_same (hsame : R.Same g g') : R.Extends h g g' :=
  fun t => ⟨[], by rw [hsame t, List.append_nil], fun _ hi => absurd hi List.not_mem_nil⟩

theorem Extends.refl (h : List L) (g : G) : R.Extends h g g := .of_same fun _ => rfl

theorem Extends.trans (h₁ : R.Extends h g g') (h₂ : R.Extends h g' g'') : R.Extends h g g'' := by
  intro t
  obtain ⟨new, hnew, hfree⟩ := h₁ t
  obtain ⟨more, hmore, hfree'⟩ := h₂ t
  refine ⟨new ++ more, by rw [hmore, hnew, List.append_assoc], fun i hi => ?_⟩
  rcases List.mem_append.1 hi with hi | hi
  · exact hfree i hi
  · exact hfree' i hi

theorem Extends.weaken {l : L} (hext : R.Extends (l :: h) g g') : R.Extends h g g' := by
  intro t
  obtain ⟨new, hnew, hfree⟩ := hext t
  exact ⟨new, hnew, fun i hi => ⟨fun hl => (hfree i hi).1 (List.mem_cons_of_mem _ hl),
    fun hl => (hfree i hi).2 (List.mem_cons_of_mem _ hl)⟩⟩

theorem Extends.mem (hext : R.Extends h g g') {t : T} {i : I} (hi : i ∈ R.rows t g) :
    i ∈ R.rows t g' := by
  obtain ⟨new, hnew, -⟩ := hext t
  rw [hnew]
  exact List.mem_append_left _ hi

/-- A commit is interference for every session whose locks are disjoint. -/
theorem Adds.extends {h' : List L} (hadds : R.Adds h g g') (hdisj : ∀ l ∈ h, l ∉ h') :
    R.Extends h' g g' := by
  intro t
  obtain ⟨new, hnew, hheld⟩ := hadds t
  exact ⟨new, hnew, fun i hi => ⟨hdisj _ (hheld i hi).1, hdisj _ (hheld i hi).2⟩⟩

/-! ### The discipline -/

/-- What is said of rows goes on holding as rows are added. -/
def Lasting (R : Registry G L I T) (S : G → Prop) : Prop :=
  ∀ g g', (∀ t, ∀ i ∈ R.rows t g, i ∈ R.rows t g') → S g → S g'

theorem lasting_true : R.Lasting fun _ => True := fun _ _ _ _ => trivial

theorem lasting_mem (t : T) (i : I) : R.Lasting fun g => i ∈ R.rows t g :=
  fun _ _ hsub hi => hsub t i hi

theorem Lasting.and {S S' : G → Prop} (hS : R.Lasting S) (hS' : R.Lasting S') :
    R.Lasting fun g => S g ∧ S' g :=
  fun g g' hsub hg => ⟨hS g g' hsub hg.1, hS' g g' hsub hg.2⟩

theorem lasting_const (H : Prop) : R.Lasting fun _ => H := fun _ _ _ h => h

theorem Lasting.imp {H : Prop} {S : G → Prop} (hS : R.Lasting S) : R.Lasting fun g => H → S g :=
  fun g g' hsub hg h => hS g g' hsub (hg h)

theorem Lasting.exists {X : Type} {S : X → G → Prop} (hS : ∀ x, R.Lasting (S x)) :
    R.Lasting fun g => ∃ x, S x g :=
  fun g g' hsub ⟨x, hx⟩ => ⟨x, hS x g g' hsub hx⟩

/-- The discipline of a registry, where a commit with result `a` leaves rows of which `tells a`
    holds. -/
def discipline (R : Registry G L I T) (tells : α → G → Prop) : Discipline G L ε α where
  inv := R.Ok
  post h a g g' := R.Adds h g g' ∧ tells a g'
  rely := R.Extends
  env := R.Same
  rely_refl := Extends.refl
  rely_trans _ _ _ _ := Extends.trans
  post_rely _ _ _ _ _ _ _ hdisj hpost := hpost.1.extends hdisj
  env_inv _ _ hg hsame := hg.of_same hsame
  env_rely _ _ _ _ hsame := .of_same hsame

/-- **What a result tells holds in every state from its commit on.** -/
theorem tells_of_reachable [DecidableEq ι] {tells : α → G → Prop}
    (hlasting : ∀ a, R.Lasting (tells a)) {allowed : List α → Tx G L ε α → Prop} {g₀ : G}
    (hprog : ∀ log p g, allowed log p → R.Ok g →
      (R.discipline tells : Discipline G L ε α).Safe p id [] g) (h₀ : R.Ok g₀)
    {s : State G L ε α ι} (hs : Reachable allowed R.Same g₀ s) :
    R.Ok s.db ∧ ∀ a ∈ s.log, tells a s.db := by
  refine ⟨(Discipline.sound (D := R.discipline tells) hprog h₀ hs).inv, ?_⟩
  refine Discipline.commit_induction (D := R.discipline tells)
    (J := fun g log => ∀ a ∈ log, tells a g) hprog h₀ (fun _ ha => absurd ha List.not_mem_nil)
    ?_ ?_ hs
  · -- a commit adds rows: what was told before lasts, what is told now was left
    intro h a g g' log _ _ hpost hlog b hb
    obtain ⟨hadds, htells⟩ : R.Adds h g g' ∧ tells a g' := hpost
    rcases List.mem_append.1 hb with hb | hb
    · refine hlasting b g g' (fun t i hi => ?_) (hlog b hb)
      have hext : R.Extends [] g g' := hadds.extends fun _ _ => List.not_mem_nil
      exact hext.mem hi
    · rw [List.mem_singleton.1 hb]
      exact htells
  · intro g g' log _ hsame hlog b hb
    refine hlasting b g g' (fun t i hi => ?_) (hlog b hb)
    rw [hsame t]
    exact hi

/-! ### Sessions -/

section Sessions

variable [DecidableEq T] {w u : G → G} {new : List I} {S S' : G → Prop}

/-- The rows a session adds to a table. -/
def added (R : Registry G L I T) (new : List I) (t : T) : List I :=
  new.filter fun i => R.table i = t

theorem added_append (new more : List I) (t : T) :
    R.added (new ++ more) t = R.added new t ++ R.added more t := List.filter_append _ _

theorem mem_of_added {i : I} {t : T} (hi : i ∈ R.added new t) : i ∈ new :=
  (List.mem_filter.1 hi).1

/-- A session whose writes add these rows: it holds their locks, and the rows it sees have
    distinct keys. -/
structure Writing (R : Registry G L I T) (new : List I) (w : G → G) (h : List L) (g : G) :
    Prop where
  shape : ∀ g', R.Ok g' → R.Extends h g g' → ∀ t, R.rows t (w g') = R.rows t g' ++ R.added new t
  held : ∀ i ∈ new, R.primary i ∈ h ∧ R.unique i ∈ h
  ok : R.Ok (w g)

/-- Rows that are added meanwhile have other keys, for the locks of a session's own are held. -/
theorem nodup_meanwhile {f : I → L} {old own more : List I} (hown : ((old ++ own).map f).Nodup)
    (hmore : ((old ++ more).map f).Nodup) (hheld : ∀ i ∈ own, f i ∈ h)
    (hfree : ∀ i ∈ more, f i ∉ h) : ((old ++ more ++ own).map f).Nodup := by
  rw [List.map_append, List.nodup_append] at hown hmore ⊢
  obtain ⟨-, hnodup, hdisj⟩ := hown
  refine ⟨by rw [List.map_append, List.nodup_append]; exact hmore, hnodup, fun x hx y hy => ?_⟩
  obtain ⟨i, hi, rfl⟩ := List.mem_map.1 hy
  rw [List.map_append] at hx
  rcases List.mem_append.1 hx with hx | hx
  · exact hdisj x hx _ hy
  · obtain ⟨j, hj, rfl⟩ := List.mem_map.1 hx
    intro heq
    exact hfree j hj (heq ▸ hheld i hi)

theorem Writing.stable (hw : R.Writing new w h g) (hg : R.Ok g) (hext : R.Extends h g g')
    (hg' : R.Ok g') : R.Writing new w h g' where
  shape g'' hg'' hext' := hw.shape g'' hg'' (hext.trans hext')
  held := hw.held
  ok := by
    have hkeys : ∀ t, R.rows t (w g) = R.rows t g ++ R.added new t := hw.shape g hg (.refl h g)
    refine ⟨fun t => ?_, fun t => ?_⟩
    · -- the keys of what was added meanwhile are none of those that are held
      obtain ⟨more, hmore, hfree⟩ := hext t
      rw [hw.shape g' hg' hext t, hmore]
      refine nodup_meanwhile (h := h) ?_ ?_ (fun i hi => (hw.held i (mem_of_added hi)).1)
        fun i hi => (hfree i hi).1
      · rw [← hkeys]
        exact hw.ok.primary t
      · rw [← hmore]
        exact hg'.primary t
    · obtain ⟨more, hmore, hfree⟩ := hext t
      rw [hw.shape g' hg' hext t, hmore]
      refine nodup_meanwhile (h := h) ?_ ?_ (fun i hi => (hw.held i (mem_of_added hi)).2)
        fun i hi => (hfree i hi).2
      · rw [← hkeys]
        exact hw.ok.unique t
      · rw [← hmore]
        exact hg'.unique t

/-- A session that has added rows under their locks, and what it knows of the rows it sees. -/
structure Knows (R : Registry G L I T) (S : G → Prop) (w : G → G) (h : List L) (g : G) : Prop where
  committed : R.Ok g
  writing : ∃ new, R.Writing new w h g
  known : S (w g)

/-- A session that has written nothing yet. -/
theorem Knows.start (hg : R.Ok g) (h : List L) : R.Knows (fun _ => True) id h g where
  committed := hg
  writing := ⟨[], fun _ _ _ _ => (List.append_nil _).symm, fun _ hi => absurd hi List.not_mem_nil,
    hg⟩
  known := trivial

theorem Knows.ok (hk : R.Knows S w h g) : R.Ok (w g) := by
  obtain ⟨new, hw⟩ := hk.writing
  exact hw.ok

theorem Knows.mono (hk : R.Knows S w h g) (hSS' : R.Ok (w g) → S (w g) → S' (w g)) :
    R.Knows S' w h g := ⟨hk.committed, hk.writing, hSS' hk.ok hk.known⟩

theorem Knows.stable (hk : R.Knows S w h g) (hS : R.Lasting S) (hext : R.Extends h g g')
    (hg' : R.Ok g') : R.Knows S w h g' := by
  obtain ⟨new, hw⟩ := hk.writing
  refine ⟨hg', ⟨new, hw.stable hk.committed hext hg'⟩, ?_⟩
  refine hS (w g) (w g') (fun t i hi => ?_) hk.known
  rw [hw.shape g hk.committed (.refl h g) t] at hi
  rw [hw.shape g' hg' hext t]
  rcases List.mem_append.1 hi with hi | hi
  · exact List.mem_append_left _ (hext.mem hi)
  · exact List.mem_append_right _ hi

theorem Knows.lock (hk : R.Knows S w h g) (l : L) : R.Knows S w (l :: h) g := by
  obtain ⟨new, hw⟩ := hk.writing
  refine ⟨hk.committed, ⟨new, fun g' hg' hext => hw.shape g' hg' hext.weaken, fun i hi => ?_,
    hw.ok⟩, hk.known⟩
  obtain ⟨hprimary, hunique⟩ := hw.held i hi
  exact ⟨List.mem_cons_of_mem _ hprimary, List.mem_cons_of_mem _ hunique⟩

/-- A row that the session sees later was there before, or has keys it holds no locks of. -/
theorem Knows.earlier (hk : R.Knows S w h g) (hext : R.Extends h g g') (hg' : R.Ok g') {t : T}
    {j : I} (hj : j ∈ R.rows t (w g')) :
    j ∈ R.rows t (w g) ∨ R.primary j ∉ h ∧ R.unique j ∉ h := by
  obtain ⟨new, hw⟩ := hk.writing
  obtain ⟨more, hmore, hfree⟩ := hext t
  rw [hw.shape g' hg' hext t, hmore] at hj
  rw [hw.shape g hk.committed (.refl h g) t]
  rcases List.mem_append.1 hj with hj | hj
  · rcases List.mem_append.1 hj with hj | hj
    · exact .inl (List.mem_append_left _ hj)
    · exact .inr (hfree j hj)
  · exact .inl (List.mem_append_right _ hj)

/-- A write that leaves the registry of what the session sees as it was. -/
theorem Knows.same (hk : R.Knows S w h g) (hS : R.Lasting S)
    (hu : ∀ g', R.Knows S w h g' → R.Same (w g') (u (w g'))) : R.Knows S (u ∘ w) h g := by
  obtain ⟨new, hw⟩ := hk.writing
  have hsame := hu g hk
  refine ⟨hk.committed, ⟨new, fun g' hg' hext t => ?_, hw.held, hw.ok.of_same hsame⟩, ?_⟩
  · exact (hu g' (hk.stable hS hext hg') t).trans (hw.shape g' hg' hext t)
  · refine hS (w g) _ (fun t i hi => ?_) hk.known
    rw [Function.comp_apply, hsame t]
    exact hi

/-- A row is added under its locks, where the session sees no row with its keys. -/
theorem Knows.insert (hk : R.Knows S w h g) (hS : R.Lasting S) {i : I}
    (hu : ∀ g' t, R.rows t (u g') = R.rows t g' ++ R.added [i] t) (hprimary : R.primary i ∈ h)
    (hunique : R.unique i ∈ h)
    (hfresh : ∀ j ∈ R.rows (R.table i) (w g), R.primary j ≠ R.primary i ∧
      R.unique j ≠ R.unique i) :
    R.Knows (fun g => S g ∧ i ∈ R.rows (R.table i) g) (u ∘ w) h g := by
  obtain ⟨new, hw⟩ := hk.writing
  -- the keys of the new row are none of those that are there
  have hnodup : ∀ (f : I → L), (∀ t, ((R.rows t (w g)).map f).Nodup) →
      (∀ j ∈ R.rows (R.table i) (w g), f j ≠ f i) → ∀ t, ((R.rows t (u (w g))).map f).Nodup := by
    intro f hf hother t
    rw [hu, List.map_append]
    by_cases ht : R.table i = t
    · subst ht
      rw [added, List.filter_cons_of_pos (by simp), List.filter_nil]
      refine List.Nodup.append (hf _) (List.nodup_singleton _) fun x hx hy => ?_
      obtain ⟨j, hj, rfl⟩ := List.mem_map.1 hx
      exact hother j hj (List.mem_singleton.1 hy)
    · rw [added, List.filter_cons_of_neg (by simpa using ht), List.filter_nil, List.map_nil,
        List.append_nil]
      exact hf t
  refine ⟨hk.committed, ⟨new ++ [i], fun g' hg' hext t => ?_, fun j hj => ?_, ?_⟩, ?_, ?_⟩
  · rw [Function.comp_apply, hu, hw.shape g' hg' hext t, List.append_assoc, added_append]
  · rcases List.mem_append.1 hj with hj | hj
    · exact hw.held j hj
    · rw [List.mem_singleton.1 hj]
      exact ⟨hprimary, hunique⟩
  · exact ⟨hnodup R.primary hw.ok.primary fun j hj => (hfresh j hj).1,
      hnodup R.unique hw.ok.unique fun j hj => (hfresh j hj).2⟩
  · refine hS (w g) _ (fun t j hj => ?_) hk.known
    rw [Function.comp_apply, hu]
    exact List.mem_append_left _ hj
  · rw [Function.comp_apply, hu]
    exact List.mem_append_right _ (List.mem_filter.2 ⟨List.mem_singleton_self i, by simp⟩)

/-- A session commits, with a result that tells what it knows. -/
theorem Knows.commit {tells : α → G → Prop} (hlasting : ∀ a, R.Lasting (tells a)) {a : α}
    (hk : R.Knows (tells a) w h g) :
    (R.discipline tells : Discipline G L ε α).Commit a w h g := by
  intro g' hext hg'
  have hk' := hk.stable (hlasting a) hext hg'
  obtain ⟨new, hw⟩ := hk'.writing
  refine ⟨hw.ok, fun t => ⟨R.added new t, hw.shape g' hg' (.refl h g') t, fun i hi => ?_⟩,
    hk'.known⟩
  exact hw.held i (mem_of_added hi)

section Triples

variable {P P' F : G → Prop} {Q Q' : β → G → Prop}

/-- A program run by a session that knows `P` leaves a session that knows `Q` of its result, and
    still all it knew before that lasts. -/
structure Triple (R : Registry G L I T) (P : G → Prop) (p : Tx G L ε β) (Q : β → G → Prop) :
    Prop where
  wp : ∀ F, R.Lasting F → ∀ w h g, R.Knows (fun g => F g ∧ P g) w h g →
    (R.discipline fun (_ : Unit) _ => True).wp p (fun a => R.Knows fun g => F g ∧ Q a g) w h g

/-- A triple of a program whose result tells what it knows makes the program safe. -/
theorem Triple.safe {tells : α → G → Prop} (hlasting : ∀ a, R.Lasting (tells a))
    {p : Tx G L ε α} (hp : R.Triple (fun _ => True) p tells) (hg : R.Ok g) :
    (R.discipline tells : Discipline G L ε α).Safe p id [] g := by
  have hstart : R.Knows (fun _ => True ∧ True) id [] g :=
    (Knows.start hg []).mono fun _ _ => ⟨trivial, trivial⟩
  have hwp := hp.wp _ lasting_true id [] g hstart
  have hinv : (R.discipline fun (_ : Unit) _ => True : Discipline G L ε Unit).inv =
      (R.discipline tells : Discipline G L ε α).inv := rfl
  have hrely : (R.discipline fun (_ : Unit) _ => True : Discipline G L ε Unit).rely =
      (R.discipline tells : Discipline G L ε α).rely := rfl
  refine Discipline.wp_mono _ (fun a w h g hk => ?_) _ _ _ _
    ((Discipline.wp_congr hinv hrely p _ id [] g).1 hwp)
  exact (hk.mono fun _ hQ => hQ.2).commit hlasting

/-- The rule of consequence. -/
theorem Triple.mono {p : Tx G L ε β} (hp : R.Triple P p Q) (hP : ∀ g, R.Ok g → P' g → P g)
    (hQ : ∀ a g, R.Ok g → Q a g → Q' a g) : R.Triple P' p Q' := by
  constructor
  intro F hF w h g hk
  refine Discipline.wp_mono _ (fun a w h g hq => ?_) _ _ _ _
    (hp.wp F hF w h g (hk.mono fun hok hFP => ⟨hFP.1, hP _ hok hFP.2⟩))
  exact hq.mono fun hok hFQ => ⟨hFQ.1, hQ a _ hok hFQ.2⟩

/-- Composition. -/
theorem Triple.bind {γ : Type} {p : Tx G L ε β} {f : β → Tx G L ε γ} {U : γ → G → Prop}
    (hp : R.Triple P p Q) (hf : ∀ a, R.Triple (Q a) (f a) U) : R.Triple P (p >>= f) U :=
  ⟨fun F hF w h g hk => Discipline.wp_seq _ (hp.wp F hF w h g hk) fun a w h g =>
    (hf a).wp F hF w h g⟩

theorem Triple.map {γ : Type} {p : Tx G L ε β} {f : β → γ} {U : γ → G → Prop}
    (hp : R.Triple P p fun a => U (f a)) : R.Triple P (f <$> p) U := by
  rw [map_eq_pure_bind]
  exact hp.bind fun a => ⟨fun F _ w h g hk => hk⟩

theorem triple_pure {a : β} (h : ∀ g, R.Ok g → P g → Q a g) :
    R.Triple P (Pure.pure a : Tx G L ε β) Q :=
  ⟨fun _ _ _ _ _ hk => hk.mono fun hok hFP => ⟨hFP.1, h _ hok hFP.2⟩⟩

theorem triple_throw (e : ε) : R.Triple P (Tx.throw e : Tx G L ε β) Q :=
  ⟨fun _ _ _ _ _ _ => trivial⟩

/-- What a result knows whatever else holds, the program may start from. -/
theorem triple_of_pure {p : Tx G L ε β} {H : Prop} (hp : H → R.Triple P p Q) :
    R.Triple (fun g => H ∧ P g) p Q := by
  constructor
  intro F hF w h g hk
  exact (hp hk.known.2.1).wp F hF w h g (hk.mono fun _ hk => ⟨hk.1, hk.2.2⟩)

/-- A query shows something of the rows the session sees. -/
theorem triple_reads {f : G → β} (hP : R.Lasting P) (hQ : ∀ g, R.Ok g → P g → Q (f g) g) :
    R.Triple P (Tx.reads f : Tx G L ε β) Q := by
  constructor
  intro F hF w h g hk g' hext hg'
  have hk' := hk.stable (hF.and hP) hext hg'
  exact hk'.mono fun hok hFP => ⟨hFP.1, hQ _ hok hFP.2⟩

/-- Statements that leave the registry as it is do not end what a session knows. -/
theorem triple_of_same {p : Tx G L ε β} (hp : p.Writes fun u => ∀ g, R.Same g (u g))
    (hP : R.Lasting P) : R.Triple P p fun _ => P := by
  constructor
  intro F hF w h g hk
  have hS := hF.and hP
  exact Discipline.wp_of_kept _ (P := fun u => ∀ g, R.Same g (u g))
    (J := R.Knows fun g => F g ∧ P g)
    (fun _ _ _ _ hext hg' hk => hk.stable hS hext hg')
    (fun _ w _ _ hu hk => hk.same hS fun g' _ => hu (w g'))
    (fun l _ _ _ hk => hk.lock l) hp w h g hk

theorem triple_readOnly {p : Tx G L ε β} (hp : p.ReadOnly) (hP : R.Lasting P) :
    R.Triple P p fun _ => P := triple_of_same (Tx.writes_of_readOnly hp) hP

/-- What a program returns whatever it reads is known of its result. -/
theorem Triple.returning {p : Tx G L ε β} {A : β → Prop} (hp : R.Triple P p Q)
    (hreturns : p.Returns A) : R.Triple P p fun a g => A a ∧ Q a g := by
  constructor
  intro F hF w h g hk
  refine Discipline.wp_mono _ (fun a w h g hq => ?_) _ _ _ _
    (Discipline.wp_of_returns _ hreturns _ _ _ (hp.wp F hF w h g hk))
  exact hq.2.mono fun _ hFQ => ⟨hFQ.1, hq.1, hFQ.2⟩

/-- A row that is known is written back, with what may change of it. -/
theorem triple_modify {u : G → G} (hP : R.Lasting P) (hu : ∀ g, R.Ok g → P g → R.Same g (u g)) :
    R.Triple P (Tx.modify u : Tx G L ε Unit) fun _ => P := by
  constructor
  intro F hF w h g hk g' hext hg'
  have hk' := hk.stable (hF.and hP) hext hg'
  exact hk'.same (hF.and hP) fun g'' hk'' => hu _ hk''.ok hk''.known.2

end Triples

end Sessions

end Registry

end Txn
