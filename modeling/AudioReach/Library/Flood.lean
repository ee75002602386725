import Mathlib.Data.Finset.Card
import AudioReach.Library.Assign

/-!
# Flooding a graph with a colour

A vertex has a list of entries, and an entry may lead to another vertex and may carry a tag, an
object that follows the colour of the vertex without being a vertex itself.  `flood` colours a
vertex and then goes through its entries: the tag takes the colour, and the vertex at the other end
is flooded unless it has the colour already.  The colour is the only thing that stops it, so the
graph may have cycles.

`flood_spec` says that as many rounds as there are vertices are enough, and what the colours are:
the vertices that became coloured are reached from the first one, and everything next to them has
the colour.
-/

namespace AudioReach.Library

open Function (update update_of_ne update_self)

variable {α β : Type*} [DecidableEq α] [DecidableEq β]

/-- What a vertex has at one place of its list. -/
structure FloodEntry (α : Type*) where
  /-- The object that follows the colour of the vertex. -/
  tag : Option α
  target : Option α

/-- The tag of an entry takes the colour of the vertex. -/
def floodTag (color : α → β) (m : α) (e : FloodEntry α) : α → β :=
  match e.tag with
  | some a => update color a (color m)
  | none => color

/-- What the flood does at one entry, given how it goes on from a vertex. -/
def floodEntry (next : (α → β) → α → β → Option (α → β)) (m : α) (color : α → β)
    (e : FloodEntry α) : Option (α → β) :=
  let color := floodTag color m e
  match e.target with
  | none => some color
  | some k => if color k = color m then some color else next color k (color m)

/-- Colour a vertex, and go on from it; `none` if the rounds do not suffice. -/
def flood (entries : α → List (FloodEntry α)) : ℕ → (α → β) → α → β → Option (α → β)
  | 0, _, _, _ => none
  | rounds + 1, color, m, c =>
    (entries m).foldlM (floodEntry (flood entries rounds) m) (update color m c)

/-- The vertices of a graph: entries lead from one to another, and tags are something else. -/
structure FloodGraph (entries : α → List (FloodEntry α)) (verts : Finset α) : Prop where
  target_mem : ∀ m ∈ verts, ∀ e ∈ entries m, ∀ k, e.target = some k → k ∈ verts
  tag_not_mem : ∀ m ∈ verts, ∀ e ∈ entries m, ∀ a, e.tag = some a → a ∉ verts

/-- An entry leads from the one vertex to the other. -/
def Leads (entries : α → List (FloodEntry α)) (m k : α) : Prop :=
  ∃ e ∈ entries m, e.target = some k

/-- Everything at the entry has the colour. -/
def EntryHas (color : α → β) (c : β) (e : FloodEntry α) : Prop :=
  (∀ k, e.target = some k → color k = c) ∧ ∀ a, e.tag = some a → color a = c

/-- A vertex that got the colour `c` on the way from one colouring to another. -/
def Newly (verts : Finset α) (c : β) (color color' : α → β) (n : α) : Prop :=
  n ∈ verts ∧ color n ≠ c ∧ color' n = c

/-- No colour but `c` is given on the way from one colouring to another. -/
def Recoloured (c : β) (color color' : α → β) : Prop := ∀ n, color' n = color n ∨ color' n = c

/-- What a flood from `m` does, up to the entries of the vertices in `open_`, which are still
gone through. -/
structure Flooding (entries : α → List (FloodEntry α)) (verts : Finset α) (m : α) (c : β)
    (open_ : α → Prop) (color color' : α → β) : Prop where
  kept : Recoloured c color color'
  root : color' m = c
  /-- The vertices that got it are reached from the first one. -/
  reach : ∀ n, Newly verts c color color' n → Relation.ReflTransGen (Leads entries) m n
  /-- What is next to a vertex that got it has it too. -/
  closed : ∀ n, Newly verts c color color' n → ¬ open_ n → ∀ e ∈ entries n, EntryHas color' c e
  /-- Other objects got it as tags of vertices that got it. -/
  tags : ∀ a, color' a ≠ color a →
    a ∈ verts ∨ ∃ n, Newly verts c color color' n ∧ ∃ e ∈ entries n, e.tag = some a

section Recoloured

omit [DecidableEq α] [DecidableEq β]

variable {c : β} {color color' color'' : α → β}

lemma Recoloured.refl (c : β) (color : α → β) : Recoloured c color color := fun _ => Or.inl rfl

section

variable {n : α} (h : Recoloured c color color')
include h

lemma Recoloured.trans (h' : Recoloured c color' color'') : Recoloured c color color'' := by
  intro n
  rcases h' n with heq | heq
  · rw [heq]
    exact h n
  · exact Or.inr heq

lemma Recoloured.stays (hn : color n = c) : color' n = c := by
  rcases h n with heq | heq
  · rw [heq, hn]
  · exact heq

lemma Recoloured.ne (hn : color' n ≠ c) : color n ≠ c := fun heq => hn (h.stays heq)

end

lemma EntryHas.mono {e : FloodEntry α} (h : EntryHas color c e) (hkept : Recoloured c color color') :
    EntryHas color' c e :=
  ⟨fun k hk => hkept.stays (h.1 k hk), fun a ha => hkept.stays (h.2 a ha)⟩

end Recoloured

section Flood

variable {entries : α → List (FloodEntry α)} {verts : Finset α} {c : β} {color : α → β} {m : α}

omit [DecidableEq β] in
lemma recoloured_update (color : α → β) : Recoloured c color (update color m c) :=
  forall_update (p := fun n x => x = color n ∨ x = c) (fun _ => .inl rfl) (.inr rfl)

/-- The vertices that do not have the colour. -/
def others (verts : Finset α) (c : β) (color : α → β) : Finset α := verts.filter (color · ≠ c)

omit [DecidableEq α] in
lemma others_subset {color' : α → β} (h : Recoloured c color color') :
    others verts c color' ⊆ others verts c color := by
  intro n hn
  obtain ⟨hmem, hne⟩ := Finset.mem_filter.mp hn
  exact Finset.mem_filter.mpr ⟨hmem, h.ne hne⟩

lemma card_others_update (hm : m ∈ verts) (hne : color m ≠ c) :
    (others verts c (update color m c)).card < (others verts c color).card := by
  refine Finset.card_lt_card ⟨others_subset (recoloured_update color), fun hsub => ?_⟩
  have hin : m ∈ others verts c (update color m c) := hsub (Finset.mem_filter.mpr ⟨hm, hne⟩)
  exact (Finset.mem_filter.mp hin).2 (update_self m c color)

omit [DecidableEq β] in
/-- At the start only the first vertex has got the colour, and it is open. -/
lemma Flooding.start (hm : m ∈ verts) :
    Flooding entries verts m c (· = m) color (update color m c) where
  kept := recoloured_update color
  root := update_self _ _ _
  reach := by
    rintro n ⟨-, hold, hnew⟩
    obtain rfl := eq_of_update_ne (hnew ▸ Ne.symm hold)
    exact .refl
  closed := by
    rintro n ⟨-, hold, hnew⟩ hclosed
    rw [update_of_ne hclosed] at hnew
    exact absurd hnew hold
  tags := by
    intro a ha
    obtain rfl := eq_of_update_ne ha
    exact Or.inl hm

omit [DecidableEq β] in
/-- The tag of an entry of the first vertex. -/
lemma Flooding.tag (hG : FloodGraph entries verts) (hm : m ∈ verts) (hne : color m ≠ c)
    {color' : α → β} (h : Flooding entries verts m c (· = m) color color') {e : FloodEntry α}
    (he : e ∈ entries m) :
    Flooding entries verts m c (· = m) color (floodTag color' m e) ∧
      (∀ a, e.tag = some a → floodTag color' m e a = c) ∧
      Recoloured c color' (floodTag color' m e) := by
  cases htag : e.tag with
  | none =>
    have hsame : floodTag color' m e = color' := by simp [floodTag, htag]
    rw [hsame]
    exact ⟨h, fun a ha => by simp at ha, .refl c color'⟩
  | some a =>
    have hupdate : floodTag color' m e = update color' a c := by simp [floodTag, htag, h.root]
    have ha : a ∉ verts := hG.tag_not_mem m hm e he a htag
    -- the colours of the vertices are as they were
    have hvert : ∀ n ∈ verts, update color' a c n = color' n := by
      intro n hn
      refine update_of_ne ?_ _ _
      rintro rfl
      exact ha hn
    have hkept : Recoloured c color' (update color' a c) := recoloured_update color'
    have hnewly : ∀ n, Newly verts c color (update color' a c) n →
        Newly verts c color color' n := by
      rintro n ⟨hn, hold, hnew⟩
      rw [hvert n hn] at hnew
      exact ⟨hn, hold, hnew⟩
    rw [hupdate]
    refine ⟨⟨h.kept.trans hkept, ?_, fun n hn => h.reach n (hnewly n hn),
      fun n hn hopen d hd => ?_, fun d hd => ?_⟩, ?_, hkept⟩
    · rw [hvert m hm]
      exact h.root
    · exact (h.closed n (hnewly n hn) hopen d hd).mono hkept
    · by_cases heq : d = a
      · subst heq
        exact Or.inr ⟨m, ⟨hm, hne, by rw [hvert m hm]; exact h.root⟩, e, he, htag⟩
      · rw [update_of_ne heq] at hd
        rcases h.tags d hd with hmem | ⟨n, ⟨hn, hold, hnew⟩, htagged⟩
        · exact Or.inl hmem
        · exact Or.inr ⟨n, ⟨hn, hold, by rw [hvert n hn]; exact hnew⟩, htagged⟩
    · intro d hd
      obtain rfl := Option.some.inj hd
      exact update_self _ _ _

omit [DecidableEq α] [DecidableEq β] in
/-- A flood from a vertex that the first one leads to. -/
lemma Flooding.follow {color' color'' : α → β} {k : α}
    (h : Flooding entries verts m c (· = m) color color') (hlead : Leads entries m k)
    (hk : Flooding entries verts k c (fun _ => False) color' color'') :
    Flooding entries verts m c (· = m) color color'' := by
  have hnewly : ∀ n, Newly verts c color color'' n →
      Newly verts c color color' n ∨ Newly verts c color' color'' n := by
    rintro n ⟨hn, hold, hnew⟩
    by_cases hmid : color' n = c
    · exact Or.inl ⟨hn, hold, hmid⟩
    · exact Or.inr ⟨hn, hmid, hnew⟩
  refine ⟨h.kept.trans hk.kept, hk.kept.stays h.root, fun n hn => ?_,
    fun n hn hopen e he => ?_, fun a ha => ?_⟩
  · rcases hnewly n hn with hfirst | hsecond
    · exact h.reach n hfirst
    · exact (hk.reach n hsecond).head hlead
  · rcases hnewly n hn with hfirst | hsecond
    · exact (h.closed n hfirst hopen e he).mono hk.kept
    · exact hk.closed n hsecond (fun hfalse => hfalse) e he
  · by_cases hmid : color'' a = color' a
    · rw [hmid] at ha
      rcases h.tags a ha with hmem | ⟨n, ⟨hn, hne, hnew⟩, htag⟩
      · exact Or.inl hmem
      · exact Or.inr ⟨n, ⟨hn, hne, hk.kept.stays hnew⟩, htag⟩
    · rcases hk.tags a hmid with hmem | ⟨n, ⟨hn, hne, hnew⟩, htag⟩
      · exact Or.inl hmem
      · exact Or.inr ⟨n, ⟨hn, h.kept.ne hne, hnew⟩, htag⟩

section

variable {next : (α → β) → α → β → Option (α → β)} {color₀ color' : α → β}
  (hG : FloodGraph entries verts) (hm : m ∈ verts) (hne : color m ≠ c)
  (hnext : ∀ color₁ k, Recoloured c color₀ color₁ → k ∈ verts → color₁ k ≠ c →
    ∃ color₂, next color₁ k c = some color₂ ∧
    Flooding entries verts k c (fun _ => False) color₁ color₂)
include hG hm hne hnext

/-- One entry of the first vertex: the flood goes on, and everything at the entry is coloured. -/
lemma Flooding.entry (hkept : Recoloured c color₀ color')
    (h : Flooding entries verts m c (· = m) color color') {e : FloodEntry α} (he : e ∈ entries m) :
    ∃ color'', floodEntry next m color' e = some color'' ∧
      Flooding entries verts m c (· = m) color color'' ∧ Recoloured c color' color'' ∧
      EntryHas color'' c e := by
  obtain ⟨htag, htagged, hkeptTag⟩ := h.tag hG hm hne he
  unfold floodEntry
  cases htarget : e.target with
  | none => exact ⟨_, rfl, htag, hkeptTag, by simp [htarget], htagged⟩
  | some k =>
    dsimp only
    rw [htag.root]
    by_cases hk : floodTag color' m e k = c
    · rw [if_pos hk]
      refine ⟨_, rfl, htag, hkeptTag, fun d hd => ?_, htagged⟩
      obtain rfl := Option.some.inj (htarget.symm.trans hd)
      exact hk
    · rw [if_neg hk]
      obtain ⟨color₂, hflood, hspec⟩ :=
        hnext _ k (hkept.trans hkeptTag) (hG.target_mem m hm e he k htarget) hk
      refine ⟨color₂, hflood, htag.follow ⟨e, he, htarget⟩ hspec, hkeptTag.trans hspec.kept,
        fun d hd => ?_, fun a ha => hspec.kept.stays (htagged a ha)⟩
      obtain rfl := Option.some.inj (htarget.symm.trans hd)
      exact hspec.root

/-- The entries in turn. -/
lemma Flooding.loop {es : List (FloodEntry α)} (hes : ∀ e ∈ es, e ∈ entries m)
    (hkept : Recoloured c color₀ color') (h : Flooding entries verts m c (· = m) color color') :
    ∃ color'', es.foldlM (floodEntry next m) color' = some color'' ∧
      Flooding entries verts m c (· = m) color color'' ∧ Recoloured c color' color'' ∧
      ∀ e ∈ es, EntryHas color'' c e := by
  induction es generalizing color' with
  | nil => exact ⟨color', rfl, h, .refl c color', by simp⟩
  | cons e es ih =>
    obtain ⟨color₁, hstep, h₁, hkept₁, hhas⟩ :=
      h.entry hG hm hne hnext hkept (hes e List.mem_cons_self)
    obtain ⟨color₂, hrest, h₂, hkept₂, hhas₂⟩ :=
      ih (fun d hd => hes d (List.mem_cons_of_mem e hd)) (hkept.trans hkept₁) h₁
    refine ⟨color₂, ?_, h₂, hkept₁.trans hkept₂, fun d hd => ?_⟩
    · rw [List.foldlM_cons, hstep]
      exact hrest
    · rcases List.mem_cons.mp hd with rfl | hd
      · exact hhas.mono hkept₂
      · exact hhas₂ d hd

end

/-- **Flooding.**  With as many rounds as there are vertices without the colour, the flood ends. -/
theorem flood_spec (hG : FloodGraph entries verts) {rounds : ℕ} (hm : m ∈ verts)
    (hne : color m ≠ c) (hrounds : (others verts c color).card ≤ rounds) :
    ∃ color', flood entries rounds color m c = some color' ∧
      Flooding entries verts m c (fun _ => False) color color' := by
  induction rounds generalizing color m with
  | zero =>
    have hin : m ∈ others verts c color := Finset.mem_filter.mpr ⟨hm, hne⟩
    have hpos := Finset.card_pos.mpr ⟨m, hin⟩
    omega
  | succ rounds ih =>
    have hless : (others verts c (update color m c)).card < (others verts c color).card :=
      card_others_update hm hne
    have hnext : ∀ color₁ k, Recoloured c (update color m c) color₁ → k ∈ verts →
        color₁ k ≠ c → ∃ color₂, flood entries rounds color₁ k c = some color₂ ∧
          Flooding entries verts k c (fun _ => False) color₁ color₂ := by
      intro color₁ k hkept hk hkc
      exact ih hk hkc ((Finset.card_le_card (others_subset hkept)).trans (by omega))
    obtain ⟨color', hresult, hspec, -, hhas⟩ := Flooding.loop hG hm hne hnext
      (fun e (he : e ∈ entries m) => he) (.refl c _) (.start hm)
    refine ⟨color', hresult, hspec.kept, hspec.root, hspec.reach, fun n hn _ e he => ?_, hspec.tags⟩
    by_cases heq : n = m
    · subst heq
      exact hhas e he
    · exact hspec.closed n hn heq e he

end Flood

end AudioReach.Library
