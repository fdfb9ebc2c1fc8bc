import Gallery.Theorems.FragmentCache

/-!
# The menu is rendered once

The key of the menu is a constant and nothing expires it, so with caching switched on the
menu of the first listing is the menu of every listing after it: with the categories of that
moment, the text its visitor searched for, and its visitor's CSRF token in the search form.

## Main definitions

* `Frozen` — the menu in the cache is a menu that was rendered, and every menu served is it
* `Stored.RenderedIn` — the visit of a run that rendered a stored fragment

## Main results

* `frozen_step` — what a step keeps
* `menu_frozen` — once a menu has been served, no other one ever is
-/

namespace Gallery

open Store Semantics

section

variable {site : Site} {v : Visit} {db : Database} {s t : CacheState}

def Html.menu? : Html → Option MenuHtml
  | .menu html => some html
  | .pictures _ => none
  | .picture _ => none

/-- The menu a cache holds. -/
def FragmentStore.menu? (cache : FragmentStore) : Option MenuHtml :=
  (cache .menu).bind fun stored => stored.html.menu?

/-- Menus are stored under their own key alone, each as its visit has rendered it. -/
structure FragmentStore.MenuKept (site : Site) (cache : FragmentStore) : Prop where
  rendered : ∀ stored, cache .menu = some stored →
    ∃ r, stored.visit.view = .listing r ∧
      stored.html = .menu (render_menu site stored.db stored.visit r)
  elsewhere : ∀ keys stored, cache (.pictures keys) = some stored → stored.html.menu? = none

structure Frozen (site : Site) (s : CacheState) : Prop where
  cache : s.cache.MenuKept site
  served : ∀ m fresh, (Html.menu m, fresh) ∈ s.served → s.cache.menu? = some m

/-- A menu is rendered under its own key, and nothing else is. -/
theorem menu?_of_mem_fragments {key : FragmentKey} {html : Html}
    (h : (key, .ok html) ∈ v.fragments site db) :
    (key = .menu ∧ ∃ r, v.view = .listing r ∧ html = .menu (render_menu site db v r)) ∨
      ∃ keys, key = .pictures keys ∧ html.menu? = none := by
  cases hview : v.view with
  | listing r =>
    rcases mem_fragments_listing hview h with ⟨rfl, hhtml⟩ | ⟨rfl, hhtml⟩
    · exact .inl ⟨rfl, r, rfl, Except.ok.inj hhtml⟩
    · exact .inr ⟨_, rfl, by rw [Except.ok.inj hhtml]; rfl⟩
  | «show» i k =>
    obtain ⟨p, -, rfl, hhtml⟩ := mem_fragments_show hview h
    refine .inr ⟨_, rfl, ?_⟩
    cases hpage : render_picture site db v p k with
    | error e => simp [hpage, Except.map] at hhtml
    | ok page =>
      obtain rfl : html = .picture page := by simpa [hpage, Except.map] using hhtml
      rfl

/-- A fragment that has just been stored. -/
theorem menu?_update {cache : FragmentStore} {key : FragmentKey} {stored : Stored}
    (hkey : key ≠ .menu) :
    FragmentStore.menu? (Function.update cache key (some stored)) = cache.menu? := by
  rw [FragmentStore.menu?, Function.update_of_ne hkey.symm, FragmentStore.menu?]

theorem FragmentStore.MenuKept.store {cache : FragmentStore} (h : cache.MenuKept site)
    {key : FragmentKey} {html : Html} (hfragment : (key, .ok html) ∈ v.fragments site db) :
    FragmentStore.MenuKept site (Function.update cache key (some ⟨html, v, db⟩)) where
  rendered stored hstored := by
    rcases menu?_of_mem_fragments hfragment with ⟨rfl, r, hview, rfl⟩ | ⟨keys, rfl, -⟩
    · rw [Function.update_self] at hstored
      rw [← Option.some.inj hstored]
      exact ⟨r, hview, rfl⟩
    · rw [Function.update_of_ne (by simp)] at hstored
      exact h.rendered stored hstored
  elsewhere keys stored hstored := by
    by_cases hkey : .pictures keys = key
    · subst hkey
      rw [Function.update_self] at hstored
      rcases menu?_of_mem_fragments hfragment with ⟨hkey, -⟩ | ⟨-, -, hhtml⟩
      · simp at hkey
      · rwa [← Option.some.inj hstored]
    · rw [Function.update_of_ne hkey] at hstored
      exact h.elsewhere keys stored hstored

/-- What the cache holds already stays. -/
theorem menu?_serve {fragment : FragmentKey × Except Failure Html} {m : MenuHtml}
    (h : s.cache.menu? = some m) : (CacheState.serve v s fragment).cache.menu? = some m := by
  obtain ⟨stored, hstored, -⟩ := Option.bind_eq_some_iff.mp h
  unfold CacheState.serve
  split
  · exact h
  · next hcache _ =>
    refine (menu?_update fun hkey => ?_).trans h
    rw [hkey, hstored] at hcache
    cases hcache
  · exact h

theorem Frozen.serve (h : Frozen site s) {fragment : FragmentKey × Except Failure Html}
    (hfragment : fragment ∈ v.fragments site s.world.db) :
    Frozen site (CacheState.serve v s fragment) := by
  obtain ⟨key, fresh⟩ := fragment
  unfold CacheState.serve
  split
  -- a hit serves what is stored under the key
  · next stored hcache =>
    refine ⟨h.cache, fun m fresh hserved => ?_⟩
    rcases List.mem_append.mp hserved with hserved | hserved
    · exact h.served m fresh hserved
    obtain ⟨hhtml, -⟩ := Prod.mk.inj (List.mem_singleton.mp hserved)
    have hmenu : stored.html.menu? = some m := by
      rw [← hhtml]
      rfl
    cases key with
    | menu =>
      rw [FragmentStore.menu?, hcache]
      exact hmenu
    | pictures keys =>
      rw [h.cache.elsewhere keys stored hcache] at hmenu
      cases hmenu
  -- a miss stores what it renders
  · next html hcache hfresh =>
    obtain rfl : fresh = .ok html := hfresh
    refine ⟨h.cache.store hfragment, fun m fresh hserved => ?_⟩
    rcases List.mem_append.mp hserved with hserved | hserved
    · have hold := h.served m fresh hserved
      refine (menu?_update fun hkey => ?_).trans hold
      rw [FragmentStore.menu?, ← hkey, hcache] at hold
      cases hold
    · obtain ⟨rfl, -⟩ := Prod.mk.inj (List.mem_singleton.mp hserved)
      rcases menu?_of_mem_fragments hfragment with ⟨rfl, -⟩ | ⟨keys, -, hhtml⟩
      · dsimp only
        rw [FragmentStore.menu?, Function.update_self]
        rfl
      · cases hhtml
  · exact h

/-- A whole page. -/
theorem Frozen.serve_all {fragments : List (FragmentKey × Except Failure Html)}
    (h : Frozen site s)
    (hfragments : ∀ fragment ∈ fragments, fragment ∈ v.fragments site s.world.db) :
    Frozen site (fragments.foldl (CacheState.serve v) s) := by
  induction fragments generalizing s with
  | nil => exact h
  | cons fragment fragments ih =>
    refine ih (h.serve (hfragments fragment List.mem_cons_self)) fun f hf => ?_
    rw [serve_world]
    exact hfragments f (List.mem_cons_of_mem _ hf)

theorem menu?_serve_all {fragments : List (FragmentKey × Except Failure Html)} {m : MenuHtml}
    (h : s.cache.menu? = some m) :
    (fragments.foldl (CacheState.serve v) s).cache.menu? = some m := by
  induction fragments generalizing s with
  | nil => exact h
  | cons fragment fragments ih => exact ih (menu?_serve h)

/-- A step of any kind keeps the menu that is in the cache, and serves no other. -/
theorem frozen_step {a : CacheStep} (h : Frozen site s)
    (hstep : (fragmentCache site).step s a = some t) :
    Frozen site t ∧ ∀ m, s.cache.menu? = some m → t.cache.menu? = some m := by
  cases a with
  | visit v =>
    simp only [fragmentCache] at hstep
    split at hstep
    · next w _ =>
      rw [← Option.some.inj hstep]
      have hentered : Frozen site { s with world := w } := ⟨h.cache, h.served⟩
      exact ⟨hentered.serve_all fun _ hfragment => hfragment, fun m hm => menu?_serve_all hm⟩
    · rw [← Option.some.inj hstep]
      exact ⟨⟨h.cache, h.served⟩, fun m hm => hm⟩
  | request r =>
    obtain ⟨-, ht⟩ := Option.ite_none_right_eq_some.mp hstep
    rw [← Option.some.inj ht]
    exact ⟨⟨h.cache, h.served⟩, fun m hm => hm⟩
  | edit r =>
    rw [← Option.some.inj hstep]
    exact ⟨⟨h.cache, h.served⟩, fun m hm => hm⟩

theorem frozen_of_reachable (h : (fragmentCache site).Reachable s) : Frozen site s := by
  refine System.Reachable.invariant (P := Frozen site) h ?_ fun s a t hs hstep =>
    (frozen_step hs hstep).1
  rintro s ⟨hcache, hserved⟩
  refine ⟨⟨fun m hm => ?_, fun keys stored hstored => ?_⟩, fun m fresh hm => ?_⟩
  · simp [hcache] at hm
  · simp [hcache] at hstored
  · simp [hserved] at hm

/-! ### The visit that rendered the menu -/

/-- The runs that go on from a state. -/
def fragmentCacheFrom (site : Site) (s : CacheState) : System CacheState CacheStep :=
  { fragmentCache site with init := fun t => t = s }

/-- A visit of the run to `s` rendered the fragment, from the database it found. -/
def Stored.RenderedIn (site : Site) (s : CacheState) (stored : Stored) : Prop :=
  ∃ s₀ s₁, (fragmentCache site).Reachable s₀ ∧
    (fragmentCache site).step s₀ (.visit stored.visit) = some s₁ ∧
      (fragmentCacheFrom site s₁).Reachable s ∧
        stored.db = stored.visit.request.enter s₀.world.db

/-- What a page stores is its visit's own. -/
theorem stored_serve_all {fragments : List (FragmentKey × Except Failure Html)} {key : FragmentKey}
    {stored : Stored} (h : (fragments.foldl (CacheState.serve v) s).cache key = some stored) :
    s.cache key = some stored ∨ stored.visit = v ∧ stored.db = s.world.db := by
  induction fragments generalizing s with
  | nil => exact .inl h
  | cons fragment fragments ih =>
    rcases ih h with hstored | ⟨hvisit, hdb⟩
    · unfold CacheState.serve at hstored
      split at hstored
      · exact .inl hstored
      · rcases stored_update hstored with rfl | hstored
        · exact .inr ⟨rfl, rfl⟩
        · exact .inl hstored
      · exact .inl hstored
    · exact .inr ⟨hvisit, hdb.trans (by rw [serve_world])⟩

theorem renderedIn_step {a : CacheStep} (hs : (fragmentCache site).Reachable s)
    (h : ∀ stored, s.cache .menu = some stored → stored.RenderedIn site s)
    (hstep : (fragmentCache site).step s a = some t) {stored : Stored}
    (hstored : t.cache .menu = some stored) : stored.RenderedIn site t := by
  have hlater : s.cache .menu = some stored → stored.RenderedIn site t := by
    intro hstored
    obtain ⟨s₀, s₁, hs₀, hvisit, hs, hdb⟩ := h stored hstored
    exact ⟨s₀, s₁, hs₀, hvisit, hs.step hstep, hdb⟩
  cases a with
  | visit v =>
    have hvisit := hstep
    simp only [fragmentCache, exec_visit] at hstep
    split_ifs at hstep
    · rw [← Option.some.inj hstep] at hstored
      rcases stored_serve_all hstored with hstored | ⟨rfl, hdb⟩
      · exact hlater hstored
      · exact ⟨s, t, hs, hvisit, .init rfl, hdb⟩
    · rw [← Option.some.inj hstep] at hstored
      exact hlater hstored
  | request r =>
    obtain ⟨-, ht⟩ := Option.ite_none_right_eq_some.mp hstep
    rw [← Option.some.inj ht] at hstored
    exact hlater hstored
  | edit r =>
    rw [← Option.some.inj hstep] at hstored
    exact hlater hstored

theorem renderedIn_of_reachable (h : (fragmentCache site).Reachable s) {stored : Stored}
    (hstored : s.cache .menu = some stored) : stored.RenderedIn site s := by
  suffices hboth : (fragmentCache site).Reachable s ∧
      ∀ stored, s.cache .menu = some stored → stored.RenderedIn site s from hboth.2 stored hstored
  refine System.Reachable.invariant (P := fun s => (fragmentCache site).Reachable s ∧
    ∀ stored, s.cache .menu = some stored → stored.RenderedIn site s) h ?_ ?_
  · intro s hinit
    refine ⟨.init hinit, fun stored hstored => ?_⟩
    simp [hinit.1] at hstored
  · intro s a t hs hstep
    exact ⟨hs.1.step hstep, fun stored hstored => renderedIn_step hs.1 hs.2 hstep hstored⟩

/-- A menu that has been served was rendered by a listing of the run, with the token and the
search text of that visit and the categories it found; and from then on every menu that is
served, in any run of visits and writes, is the same. -/
theorem menu_frozen (site : Site) (s : CacheState) (h : (fragmentCache site).Reachable s)
    (m : MenuHtml) (fresh : Except Failure Html) (hm : (.menu m, fresh) ∈ s.served) :
    (∃ s₀ s₁ v r, (fragmentCache site).Reachable s₀ ∧ v.view = .listing r ∧
        (fragmentCache site).step s₀ (.visit v) = some s₁ ∧
        (fragmentCacheFrom site s₁).Reachable s ∧
        m = ⟨v.token, r.title_cont, menu_categories site s₀.world.db⟩) ∧
      ∀ t, (fragmentCacheFrom site s).Reachable t →
        ∀ m' fresh', (.menu m', fresh') ∈ t.served → m' = m := by
  have hs := frozen_of_reachable h
  have hmenu := hs.served m fresh hm
  refine ⟨?_, fun t ht m' fresh' hm' => ?_⟩
  · obtain ⟨stored, hstored, hhtml⟩ := Option.bind_eq_some_iff.mp hmenu
    obtain ⟨r, hview, hrendered⟩ := hs.cache.rendered stored hstored
    obtain ⟨s₀, s₁, hs₀, hvisit, hlater, hdb⟩ := renderedIn_of_reachable h hstored
    refine ⟨s₀, s₁, stored.visit, r, hs₀, hview, hvisit, hlater, ?_⟩
    -- the filters in front of the page leave the categories alone
    have hcategories := (enter_unseen stored.visit.request s₀.world.db).2.2.1
    rw [hrendered] at hhtml
    obtain rfl := Option.some.inj hhtml
    rw [render_menu, menu_categories, hdb, hcategories]
    rfl
  · have hkept : Frozen site t ∧ t.cache.menu? = some m := by
      refine System.Reachable.invariant (P := fun t => Frozen site t ∧ t.cache.menu? = some m) ht
        ?_ fun s a t hs hstep => ?_
      · rintro s rfl
        exact ⟨hs, hmenu⟩
      · obtain ⟨ht, hkeeps⟩ := frozen_step hs.1 hstep
        exact ⟨ht, hkeeps m hs.2⟩
    exact Option.some.inj ((hkept.1.served m' fresh' hm').symm.trans hkept.2)

end

/-- Somebody visits the front page, an administrator adds a category, and a second visitor is
served the first one's menu, token included. -/
theorem menu_frozen_visitors :
    ∃ t : CacheState,
      ((.menu ⟨"token", none, [(1, "Cities")]⟩,
          .ok (.menu ⟨"another token", none, [(1, "Cities"), (2, "Towns")]⟩)) :
        Html × Except Failure Html) ∈ t.served ∧
      ∀ m' fresh', (.menu m', fresh') ∈ t.served → m' = ⟨"token", none, [(1, "Cities")]⟩ := by
  have hfirst : (fragmentCache .sample).replay .sample [.visit .sample] = some _ := rfl
  refine ⟨_, ?_, (menu_frozen .sample _ (System.Reachable.replay (.init init_cache_sample) hfirst)
    ⟨"token", none, [(1, "Cities")]⟩ (.ok (.menu ⟨"token", none, [(1, "Cities")]⟩))
      (by decide)).2 _
    (.step (a := .visit { Visit.sample with token := "another token" })
      (.step (a := .request ⟨none, "http://gallery/admin/categories", 0,
        .admin_categories_create (some "Towns")⟩) (.init rfl) rfl) rfl)⟩
  decide

end Gallery
