import Gallery.Pages.Buttons
import Gallery.Theorems.Ownership

/-!
# What the icons and the like button show

The icons of the menu follow the server as replies in the order of the requests arrive,
whatever else goes on: an icon that shows a subscription never lies, and from the moment
the page has been told the subscriptions, every icon says whether the user is subscribed.
The like button says nothing before the first click, and the truth afterwards.

## Main definitions

* `Elsewhere` — requests that are no subscribe request of the user
* `Menu.Agrees` — what the settled icons say about the subscriptions

## Main results

* `menu_agrees` — in every run
* `like_button_agrees` — the same for the like button
-/

namespace Gallery

open Store Rails App Semantics

/-- Nothing but the menu subscribes the user or ends a subscription of the user. -/
def Elsewhere (u : Id) (_ : World) (r : Request) : Prop :=
  ∀ cat_id, r.route = .categories_subscribe cat_id → r.session ≠ some u

/-- Nothing but the button likes or unlikes the picture for the user: no like request of the
user whose parameter reads as the picture, unless it only asks, and no request to destroy the
user or the picture. -/
structure ElsewhereLiked (u picture : Id) (w : World) (r : Request) : Prop where
  like : ∀ pic_id, r.route = .pictures_like pic_id none → assignInteger pic_id = some picture →
    r.session ≠ some u
  cancel : r.route = .registrations_destroy → r.session ≠ some u
  user : r.route ≠ .admin_users_destroy u
  picture : r.route ≠ .admin_pictures_destroy picture

section Requests

variable {w w' : World} {u c p : Id} {url : String} {now : Time}

/-! ### Other requests -/

theorem subscriptions_outcome {route : Route} {user : Option (Row User)}
    {res : Except Raised Response} (ho : Outcome now w route user res w')
    (hother : ∀ cat_id v, route = .categories_subscribe cat_id → user = some v → v.id ≠ u) :
    w'.db.user_categories.share (fun s => s.user_id = u) =
      w.db.user_categories.share fun s => s.user_id = u := by
  cases ho with
  | subscribed => exact Table.share_insert_of_not (by simp [hother _ _ rfl rfl])
  | unsubscribed =>
    refine Table.share_delete_of_not fun s _ hs => ?_
    have hs : s.val.user_id = u := by simpa using hs
    simp [hs, (hother _ _ rfl rfl).symm]
  | quiet _ _ hdb | messaged _ _ _ hdb => rw [hdb]
  | commented _ _ hdb | picture_created _ _ _ hdb =>
    rw [hdb]
    rfl
  | _ => rfl

theorem subscriptions_leaves {r : Request} (h : Elsewhere u w r) :
    (r.leaves w).db.user_categories.share (fun s => s.user_id = u) =
      w.db.user_categories.share fun s => s.user_id = u := by
  unfold Request.leaves
  rcases run_cases r w with ⟨-, hrun⟩ | ⟨-, ho⟩
  · rw [hrun]
  · rw [← (enter_toggles r w.db).2]
    exact subscriptions_outcome ho fun cat_id v hroute hv => ne_of_user (h cat_id hroute) hv

theorem mem_subscriptions_leaves {r : Request} (h : Elsewhere u w r) :
    (⟨u, c⟩ : UserCategory) ∈ (r.leaves w).db.user_categories.vals ↔
      (⟨u, c⟩ : UserCategory) ∈ w.db.user_categories.vals := by
  have hmem : ∀ t : Table UserCategory, (⟨u, c⟩ : UserCategory) ∈ t.vals ↔
      ∃ s ∈ t.share fun s => s.user_id = u, s.val = ⟨u, c⟩ := by
    intro t
    rw [Table.mem_vals]
    constructor
    · rintro ⟨s, hs, hval⟩
      exact ⟨s, Table.mem_share.mpr ⟨hs, by simp [hval]⟩, hval⟩
    · rintro ⟨s, hs, hval⟩
      exact ⟨s, (Table.mem_share.mp hs).1, hval⟩
  rw [hmem, hmem, subscriptions_leaves h]

theorem liked_outcome {route : Route} {user : Option (Row User)}
    {res : Except Raised Response} (ho : Outcome now w route user res w')
    (hlike : ∀ pic_id v, route = .pictures_like pic_id none → assignInteger pic_id = some p →
      user = some v → v.id ≠ u)
    (hcancel : ∀ v, route = .registrations_destroy → user = some v → v.id ≠ u)
    (huser : route ≠ .admin_users_destroy u) (hpicture : route ≠ .admin_pictures_destroy p) :
    (⟨u, p⟩ : Like) ∈ w'.db.likes.vals ↔ (⟨u, p⟩ : Like) ∈ w.db.likes.vals := by
  cases ho with
  | @like_created v pic_id q _ hq _ _ =>
    have hne : (⟨u, p⟩ : Like) ≠ ⟨v.id, q⟩ := by
      rintro ⟨⟩
      exact hlike _ _ rfl hq rfl rfl
    simp [Database.addLike, hne]
  | @like_destroyed v s q _ hq _ =>
    refine Table.mem_vals_delete_of_not fun l _ hl => ?_
    by_cases hqp : q = p
    · subst hqp
      have hne := hlike _ _ rfl (assignInteger_of_parseInteger hq) rfl
      simp [hl, hne.symm]
    · simp [hl, Ne.symm hqp]
  | cancelled =>
    refine Table.mem_vals_delete_of_not fun l _ hl => ?_
    simp [hl, (hcancel _ rfl rfl).symm]
  | user_destroyed =>
    refine Table.mem_vals_delete_of_not fun l _ hl => ?_
    have hne : u ≠ _ := fun hu => huser (hu ▸ rfl)
    simpa [hl] using hne
  | picture_destroyed =>
    refine Table.mem_vals_delete_of_not fun l _ hl => ?_
    have hne : p ≠ _ := fun hp => hpicture (hp ▸ rfl)
    simpa [hl] using hne
  | quiet _ _ hdb | messaged _ _ _ hdb => rw [hdb]
  | commented _ _ hdb | picture_created _ _ _ hdb =>
    rw [hdb]
    rfl
  | _ => rfl

theorem mem_likes_leaves {r : Request} (h : ElsewhereLiked u p w r) :
    (⟨u, p⟩ : Like) ∈ (r.leaves w).db.likes.vals ↔ (⟨u, p⟩ : Like) ∈ w.db.likes.vals := by
  unfold Request.leaves
  rcases run_cases r w with ⟨-, hrun⟩ | ⟨-, ho⟩
  · rw [hrun]
  · rw [← (enter_toggles r w.db).1]
    exact liked_outcome ho (fun pic_id v hroute hp hv => ne_of_user (h.like _ hroute hp) hv)
      (fun v hroute hv => ne_of_user (h.cancel hroute) hv) h.user h.picture

/-! ### Clicks -/

/-- A request that asks for a user who is not there. -/
theorem exec_unauthenticated {r : Request} (hsession : r.session = some u)
    (hu : ¬ w.db.users.Has u)
    (hroute : Action.exec (r.route.run none r.now) w = (.error ⟨.Unauthenticated, false⟩, w)) :
    Action.exec r.run w = (.error ⟨.Unauthenticated, false⟩, w) := by
  have huser : r.user w.db = none := by
    rw [Request.user, current_user, hsession, Option.bind_some]
    exact Option.eq_none_iff_forall_ne_some.mpr fun row hrow =>
      hu (Table.has_of_find?_eq_some hrow)
  simp [exec_run, Request.trackable, Request.enter, Request.tracked, huser, hroute]

/-- A request whose URL cannot be stored. -/
theorem exec_untrackable {r : Request} (hsession : r.session = some u) (hu : w.db.users.Has u)
    (htracked : r.route.tracked = true) (hurl : ¬ w.db.canTrack r.url) :
    Action.exec r.run w = (.error ⟨.StatementInvalid, true⟩, w) := by
  obtain ⟨row, hrow⟩ := Table.has_iff_exists_find?.mp hu
  have huser : r.user w.db = some row := by
    rw [Request.user, hsession]
    exact hrow
  simp [exec_run, Request.trackable, htracked, huser, hurl]

/-- A click on an icon fails and changes nothing, or it toggles the subscription. -/
theorem subscribes_cases {cat_id : Option String} (hc : assignInteger cat_id = some c)
    (u : Id) (url : String) (now : Time) (w : World) :
    let r := Request.subscribes u url cat_id now
    ((∃ e, r.result w = .error e) ∧ (r.leaves w).db.user_categories = w.db.user_categories) ∨
      r.result w = .ok (.subscribe
          (if (⟨u, c⟩ : UserCategory) ∈ w.db.user_categories.vals then none else some 1)) ∧
        (r.leaves w).db.user_categories = w.db.user_categories.toggle ⟨u, c⟩ := by
  intro r
  by_cases hu : w.db.users.Has u
  swap
  · have hrun : Action.exec r.run w = _ := exec_unauthenticated rfl hu rfl
    rw [Request.result, Request.leaves, hrun]
    exact .inl ⟨⟨_, rfl⟩, rfl⟩
  by_cases hurl : w.db.canTrack url
  swap
  · have hrun : Action.exec r.run w = _ := exec_untrackable rfl hu rfl hurl
    rw [Request.result, Request.leaves, hrun]
    exact .inl ⟨⟨_, rfl⟩, rfl⟩
  by_cases hfits : fitsInteger c
  · obtain ⟨hresult, hsubscriptions, -⟩ := subscribes_toggle hu hurl hc hfits now
    exact .inr ⟨hresult, hsubscriptions⟩
  -- what cannot be stored can at most be removed
  obtain ⟨row, hrow⟩ := Table.has_iff_exists_find?.mp hu
  obtain rfl : row.id = u := (Table.find?_eq_some_iff.mp hrow).2
  have hsame : (r.enter w.db).user_categories = w.db.user_categories := (enter_toggles r w.db).2
  have hwhere := whereInteger_of_assignInteger hc
  have hsub : CategoriesController.current_sub (r.enter w.db) row cat_id = true ↔
      (⟨row.id, c⟩ : UserCategory) ∈ w.db.user_categories.vals := by
    rw [current_sub_iff, hasSubscription_iff hwhere, hsame]
  rw [Request.result, Request.leaves, exec_subscribes hrow hurl]
  by_cases hmem : (⟨row.id, c⟩ : UserCategory) ∈ w.db.user_categories.vals
  · rw [exec_subscribe_unset (hsub.mpr hmem), if_pos hmem, Table.toggle_of_mem hmem, ← hsame]
    refine .inr ⟨rfl, ?_⟩
    dsimp only
    congr 1
    funext s
    obtain ⟨_, user, category⟩ := s
    simp [hwhere, eq_comm]
  · rw [exec_subscribe_set (Bool.eq_false_iff.mpr (mt hsub.mp hmem)), hc]
    dsimp only
    rw [if_neg hfits]
    exact .inl ⟨⟨_, rfl⟩, hsame⟩

/-- A click on the like button fails, or it toggles the like. -/
theorem click_cases (u : Id) (origin : String) (p : Id) (now : Time) (w : World) :
    let r := LikeButton.click u origin p now
    (∃ e, r.result w = .error e) ∨
      (∃ n, r.result w = .ok (.like
        (if (⟨u, p⟩ : Like) ∈ w.db.likes.vals then 3 / 10 else 1) n)) ∧
        (r.leaves w).db.likes = w.db.likes.toggle ⟨u, p⟩ := by
  intro r
  by_cases hu : w.db.users.Has u
  swap
  · have hrun : Action.exec r.run w = _ := exec_unauthenticated rfl hu rfl
    rw [Request.result, hrun]
    exact .inl ⟨_, rfl⟩
  by_cases hurl : w.db.canTrack r.url
  swap
  · have hrun : Action.exec r.run w = _ := exec_untrackable rfl hu rfl hurl
    rw [Request.result, hrun]
    exact .inl ⟨_, rfl⟩
  by_cases hfits : fitsInteger p
  · obtain ⟨hresult, hlikes, -⟩ := likes_toggle hu hurl (parseInteger_toString hfits) now
    exact .inr ⟨⟨_, hresult⟩, hlikes⟩
  -- what PostgreSQL cannot read can be neither removed nor stored
  have hparse : parseInteger (toString p) = none := by
    refine Option.eq_none_iff_forall_ne_some.mpr fun q hq => hfits ?_
    rw [← to_i_toString p, to_i_of_parseInteger hq]
    exact fitsInteger_of_parseInteger hq
  obtain ⟨row, hrow⟩ := Table.has_iff_exists_find?.mp hu
  have hrun : Action.exec r.run w = _ := exec_likes hrow hurl (some (toString p)) none
  rw [Request.result, hrun]
  cases hstatus : PicturesController.status (r.enter w.db) row (some (toString p)) with
  | true =>
    rw [exec_like_unset hstatus, hparse]
    exact .inl ⟨_, rfl⟩
  | false =>
    rw [exec_like_set hstatus, assignInteger_toString]
    dsimp only
    rw [if_neg hfits]
    exact .inl ⟨_, rfl⟩

/-- The page asks for the subscriptions, which changes nothing. -/
theorem exec_check_subscribe (u : Id) (url : String) (now : Time) (w : World) :
    Action.exec (Request.run ⟨some u, url, now, .categories_check_subscribe⟩) w =
      (if w.db.users.Has u then .ok .json else .error ⟨.Unauthenticated, false⟩, w) := by
  by_cases hu : w.db.users.Has u
  · obtain ⟨row, hrow⟩ := Table.has_iff_exists_find?.mp hu
    have huser : current_user w.db (some u) = some row := hrow
    simp [exec_run, Request.trackable, Request.enter, Request.tracked, Request.user, huser, hu,
      Route.tracked, Route.pictures, Route.run, authenticate]
  · rw [if_neg hu]
    exact exec_unauthenticated rfl hu rfl

end Requests

/-! ### The menu -/

/-- No icon shows a subscription that is not there, and, once the page has been told the
subscriptions of a user who is still there, every subscription is shown. -/
structure Menu.Agrees (u : Id) (handled : List MenuRequest) (view : Option Icons) (w : World) :
    Prop where
  known : u < w.db.users.next
  honest : ∀ icons, view = some icons → ∀ c, icons c = some true →
    (⟨u, c⟩ : UserCategory) ∈ w.db.user_categories.vals
  complete : ∀ icons, view = some icons → (∃ now, .check_subscribe now ∈ handled) →
    w.db.users.Has u → ∀ c, icons c = some false →
      (⟨u, c⟩ : UserCategory) ∉ w.db.user_categories.vals

namespace Menu.Agrees

variable {u c : Id} {origin : String} {handled : List MenuRequest} {view : Option Icons} {w : World}

theorem mem_check_subscribe {db : Database} :
    ((CategoriesController.check_subscribe db u).any fun s => s.category_id = c) = true ↔
      (⟨u, c⟩ : UserCategory) ∈ db.user_categories.vals := by
  simp only [CategoriesController.check_subscribe, Table.vals, List.any_eq_true, List.mem_map,
    List.mem_filter, decide_eq_true_eq]
  constructor
  · rintro ⟨s, ⟨row, ⟨hrow, huser⟩, rfl⟩, hcategory⟩
    exact ⟨row, hrow, by rw [← huser, ← hcategory]⟩
  · rintro ⟨row, hrow, hval⟩
    exact ⟨_, ⟨row, ⟨hrow, by simp [hval]⟩, rfl⟩, by simp [hval]⟩

theorem check (h : Agrees u handled view w) (now : Time) :
    Agrees u (handled ++ [.check_subscribe now])
      ((service u origin).apply view ((service u origin).handle w (.check_subscribe now)).2)
      ((service u origin).handle w (.check_subscribe now)).1 := by
  have hrun := exec_check_subscribe u (origin ++ "/categories/check_subscribe") now w
  simp only [service, MenuRequest.request, hrun]
  by_cases hu : w.db.users.Has u
  · simp only [hu, if_true, MenuRequest.reply, MenuReply.show]
    refine ⟨h.known, fun icons hicons c hc => ?_, fun icons hicons _ _ c hc => ?_⟩
    all_goals
      obtain ⟨old, hold, rfl⟩ := Option.map_eq_some_iff.mp hicons
      obtain ⟨src, hsrc, hshown⟩ := Option.map_eq_some_iff.mp hc
    · rcases Bool.or_eq_true_iff.mp hshown with rfl | hlisted
      · exact h.honest old hold c hsrc
      · exact mem_check_subscribe.mp hlisted
    · exact fun hmem => by simp [mem_check_subscribe.mpr hmem] at hshown
  · simp only [hu, if_false, MenuRequest.reply, MenuReply.show]
    exact ⟨h.known, h.honest, fun _ _ _ hu' => absurd hu' hu⟩

theorem click (h : Agrees u handled view w) (name : Id) (now : Time) :
    Agrees u (handled ++ [.subscribe name now])
      ((service u origin).apply view ((service u origin).handle w (.subscribe name now)).2)
      ((service u origin).handle w (.subscribe name now)).1 := by
  let r := Request.subscribes u (origin ++ "/categories/subscribe") (some (toString name)) now
  have hstep : (service u origin).handle w (.subscribe name now) =
      (r.leaves w, (MenuRequest.subscribe name now).reply u (r.leaves w).db (r.result w)) := rfl
  have hlater := users_later r w
  rw [hstep]
  rcases subscribes_cases (assignInteger_toString name) u (origin ++ "/categories/subscribe") now w
    with ⟨⟨e, hresult⟩, -⟩ | ⟨hresult, htoggle⟩
  · -- the page is left
    rw [show r.result w = .error e from hresult]
    exact ⟨h.known.trans_le hlater.next, nofun, nofun⟩
  have hown : (⟨u, name⟩ : UserCategory) ∈ (r.leaves w).db.user_categories.vals ↔
      (⟨u, name⟩ : UserCategory) ∉ w.db.user_categories.vals := by
    rw [htoggle, Table.mem_toggle]
  have hother : ∀ c, c ≠ name → ((⟨u, c⟩ : UserCategory) ∈ (r.leaves w).db.user_categories.vals ↔
      (⟨u, c⟩ : UserCategory) ∈ w.db.user_categories.vals) := fun c hc => by
    rw [htoggle, Table.mem_toggle_of_ne (by simp [hc])]
  rw [show r.result w = _ from hresult]
  refine ⟨h.known.trans_le hlater.next, fun icons hicons c hc => ?_,
    fun icons hicons hchecked hu c hc => ?_⟩
  all_goals
    obtain ⟨old, hold, rfl⟩ := Option.map_eq_some_iff.mp hicons
    by_cases hname : c = name
  · subst hname
    rw [hown]
    by_contra hmem
    rw [if_pos hmem] at hc
    simp at hc
  · rw [hother c hname]
    exact h.honest old hold c (by rwa [Function.update_of_ne hname] at hc)
  · subst hname
    rw [hown, not_not]
    by_contra hmem
    rw [if_neg hmem] at hc
    simp at hc
  · rw [hother c hname]
    obtain ⟨now', hnow⟩ := hchecked
    exact h.complete old hold ⟨now', by simpa using hnow⟩ (hlater.has u h.known hu) c
      (by rwa [Function.update_of_ne hname] at hc)

theorem elsewhere (h : Agrees u handled view w) {r : Request} (hr : Elsewhere u w r) :
    Agrees u handled view (r.leaves w) where
  known := h.known.trans_le (users_later r w).next
  honest icons hicons c hc := (mem_subscriptions_leaves hr).mpr (h.honest icons hicons c hc)
  complete icons hicons hchecked hu c hc hmem :=
    h.complete icons hicons hchecked ((users_later r w).has u h.known hu) c hc
      ((mem_subscriptions_leaves hr).mp hmem)

end Menu.Agrees

/-- However the clicks, their replies and the requests of everybody else are interleaved, as
long as replies arrive in order and the user subscribes nowhere else: what the icons show
once the replies under way have arrived is subscribed to, and, when the server has answered
the page's question, what they do not show is not. -/
theorem menu_agrees (u : Id) (origin : String)
    (s : Exchange World (Option Icons) MenuRequest MenuReply)
    (h : (menu u origin).ReachableWithin (InOrder (Elsewhere u)) s) (icons : Icons)
    (hicons : s.settled (Menu.service u origin) = some icons) (c : Id) :
    (icons c = some true → (⟨u, c⟩ : UserCategory) ∈ s.server.db.user_categories.vals) ∧
      ((∃ now, .check_subscribe now ∈ s.handled) → s.server.db.users.Has u →
        icons c = some false → (⟨u, c⟩ : UserCategory) ∉ s.server.db.user_categories.vals) := by
  have hagrees : Menu.Agrees u s.handled (s.settled (Menu.service u origin)) s.server := by
    refine exchange_invariant h ?_ ?_ fun _ _ _ _ hr h => h.elsewhere hr
    · rintro s ⟨hu, ⟨icons, hview, hicons⟩, -, hreplies, hhandled⟩
      rw [Exchange.settled_of_quiet hreplies]
      refine ⟨hu.bounds.2, fun icons' h' c hc => ?_, fun _ _ hchecked => ?_⟩
      · obtain rfl := Option.some.inj (hview.symm.trans h')
        exact absurd hc (hicons c)
      · simp [hhandled] at hchecked
    · intro handled view w q h
      cases q with
      | check_subscribe now => exact h.check now
      | subscribe name now => exact h.click name now
  exact ⟨hagrees.honest icons hicons c,
    fun hchecked hu => hagrees.complete icons hicons hchecked hu c⟩

/-- The page finds a subscription, and a click ends it. -/
theorem menu_agrees_click :
    ∃ (s : Exchange World (Option Icons) MenuRequest MenuReply) (icons : Icons),
      s.settled (Menu.service 1 "http://gallery") = some icons ∧ icons 1 = some false ∧
        (⟨1, 1⟩ : UserCategory) ∉ s.server.db.user_categories.vals := by
  let db := { Database.sample with user_categories := Table.empty.insert ⟨1, 1⟩ }
  let icons : Icons := fun c => if c = 1 then some false else none
  have hicons : ∀ c, icons c ≠ some true := fun c => by
    by_cases hc : c = 1 <;> simp [icons, hc]
  have hrun : ∃ s, (menu 1 "http://gallery").ReachableWithin (InOrder (Elsewhere 1)) s ∧
      (s.settled (Menu.service 1 "http://gallery")).map (fun icons => icons 1) =
        some (some false) ∧ .check_subscribe 0 ∈ s.handled ∧ s.server.db.users.Has 1 :=
    ⟨_, .step (a := .deliver 0) (.step (a := .handle 0) (.step (a := .send (.subscribe 1 0))
      (.step (a := .deliver 0) (.step (a := .handle 0)
        (.init (s := ⟨.ofDatabase db, some icons, [.check_subscribe 0], [], []⟩)
          ⟨by decide, ⟨icons, rfl, hicons⟩, ⟨0, rfl⟩, rfl, rfl⟩)
        trivial rfl) rfl rfl) trivial rfl) trivial rfl) rfl rfl,
      by decide, List.mem_cons_self, by decide⟩
  obtain ⟨s, hs, hsettled, hchecked, hu⟩ := hrun
  obtain ⟨icons, hicons, hicon⟩ := Option.map_eq_some_iff.mp hsettled
  exact ⟨s, icons, hicons, hicon, (menu_agrees 1 _ s hs icons hicons 1).2 ⟨0, hchecked⟩ hu hicon⟩

/-! ### The like button -/

/-- Before the first click nothing is shown, and then whether the user likes the picture. -/
def LikeButton.Agrees (u picture : Id) (handled : List Time) (view : Option LikeButton)
    (w : World) : Prop :=
  ∀ button, view = some button → button.opacity =
    if handled = [] then none
    else some (if (⟨u, picture⟩ : Like) ∈ w.db.likes.vals then 1 else 3 / 10)

theorem LikeButton.Agrees.click {u picture : Id} {origin : String} {handled : List Time}
    {view : Option LikeButton} {w : World} (now : Time) :
    LikeButton.Agrees u picture (handled ++ [now])
      ((service u origin picture).apply view ((service u origin picture).handle w now).2)
      ((service u origin picture).handle w now).1 := by
  let r := LikeButton.click u origin picture now
  have hstep : (service u origin picture).handle w now = (r.leaves w, r.result w) := rfl
  rw [hstep]
  rcases click_cases u origin picture now w with ⟨e, hresult⟩ | ⟨⟨n, hresult⟩, htoggle⟩
  · rw [show r.result w = .error e from hresult]
    exact nofun
  · rw [show r.result w = _ from hresult]
    intro button hbutton
    obtain ⟨old, -, rfl⟩ := Option.map_eq_some_iff.mp hbutton
    have hliked : (⟨u, picture⟩ : Like) ∈ (r.leaves w).db.likes.vals ↔
        (⟨u, picture⟩ : Like) ∉ w.db.likes.vals := by
      rw [htoggle, Table.mem_toggle]
    simp [hliked, ite_not]

/-- However the clicks, their replies and the requests of everybody else are interleaved, as
long as replies arrive in order and the like comes and goes with the button alone: once the
replies under way have arrived, the button is as the page was loaded if nobody has clicked
it, and otherwise at full opacity exactly if the user likes the picture. -/
theorem like_button_agrees (u : Id) (origin : String) (picture : Id)
    (s : Exchange World (Option LikeButton) Time (Except Raised Response))
    (h : (likeButton u origin picture).ReachableWithin (InOrder (ElsewhereLiked u picture)) s)
    (button : LikeButton)
    (hbutton : s.settled (LikeButton.service u origin picture) = some button) :
    button.opacity = if s.handled = [] then none
      else some (if (⟨u, picture⟩ : Like) ∈ s.server.db.likes.vals then 1 else 3 / 10) := by
  have hagrees : LikeButton.Agrees u picture s.handled
      (s.settled (LikeButton.service u origin picture)) s.server := by
    refine exchange_invariant h ?_ (fun _ _ _ now _ => LikeButton.Agrees.click now) ?_
    · rintro s ⟨⟨n, hview⟩, -, hreplies, hhandled⟩ button hbutton
      rw [Exchange.settled_of_quiet hreplies, hview] at hbutton
      obtain rfl := Option.some.inj hbutton
      rw [if_pos hhandled]
    · intro handled view w r hr h button hbutton
      rw [h button hbutton]
      simp only [LikeButton.service]
      have hsame := mem_likes_leaves hr
      simp only [Request.leaves] at hsame
      simp only [hsame]
  exact hagrees button hbutton

/-- One click on a picture that nobody has liked. -/
theorem like_button_agrees_click :
    ∃ s : Exchange World (Option LikeButton) Time (Except Raised Response),
      s.view = some ⟨some 1, 1⟩ ∧ (⟨1, 1⟩ : Like) ∈ s.server.db.likes.vals ∧
        some (1 : ℚ) = if s.handled = [] then none
          else some (if (⟨1, 1⟩ : Like) ∈ s.server.db.likes.vals then 1 else 3 / 10) := by
  refine ⟨_, rfl, by decide, like_button_agrees 1 "http://gallery" 1 _
    (.step (a := .deliver 0) (.step (a := .handle 0) (.step (a := .send 0)
      (.init (s := ⟨.ofDatabase .sample, some ⟨none, 0⟩, [], [], []⟩)
        ⟨⟨0, rfl⟩, rfl, rfl, rfl⟩) trivial rfl) trivial rfl) rfl rfl) ⟨some 1, 1⟩ rfl⟩

end Gallery
