import Gallery.Controllers.TwoRuns
import Gallery.Semantics.Transition

/-!
# Who an OmniAuth callback signs in

A callback looks its user up by the uid alone, and signs in whatever record it
has then, stored or not. So it signs in the right row if the only row that has the
uid is the provider's own, or if there is none and the new record can be stored.

## Main definitions

* `Callback` — a callback with its payload and Devise's verdict
* `Callback.signs_in` — the stored row that is signed in afterwards
* `callbacks`, `Identified` — sequences of callbacks, and what ought to hold of them
* `Recognised` — the callbacks, in a given state, that sign in the right row

## Main results

* `recognised_of_repeated` — only these keep the identities right, if they come again
* `oauth_identity` — sequences of such callbacks
-/

namespace Gallery

open Store Rails App Semantics

/-- A request for `/auth/:provider/callback`. -/
structure Callback where
  session : Option Id
  url : String
  now : Time
  auth : Auth
  /-- Devise's sign-in bookkeeping saves the record, which it does without validation. -/
  tracked : Bool
  digest : String
  /-- The row the look-up by the uid answers with, if several have it. -/
  pick : Id
deriving DecidableEq, Repr

namespace Callback

def request (k : Callback) : Request :=
  ⟨k.session, k.url, k.now, .sessions_facebook k.auth k.tracked k.digest k.pick⟩

/-- The stored row that is signed in once the callback has been handled; none if it
failed, or if the record given to `sign_in` is not stored. -/
def signs_in (k : Callback) (w : World) : Option Id :=
  if k.request.trackable w.db then
    match (Action.exec
        (SessionsController.find_or_create_by_uid k.auth k.tracked k.digest k.pick k.now)
        { w with db := k.request.enter w.db }).1 with
    | .ok id => id
    | .error _ => none
  else none

/-- The same callback where the look-up answers with another row. -/
def picking (k : Callback) (i : Id) : Callback := { k with pick := i }

end Callback

/-- A callback that has been handled: whose it was, and the row it signed in. -/
structure SignIn where
  provider : String
  uid : Option String
  user_id : Option Id
deriving DecidableEq, Repr

/-- The world, and the callbacks handled so far. -/
structure Identities where
  world : World
  sign_ins : List SignIn

/-- A callback is handled. -/
def Identities.handle (s : Identities) (k : Callback) : Identities where
  world := (Action.exec k.request.run s.world).2
  sign_ins := s.sign_ins ++ [⟨k.auth.provider, k.auth.uid, k.signs_in s.world⟩]

/-- Any callbacks one after the other, starting with any users. -/
def callbacks : System Identities Callback where
  init s := s.sign_ins = []
  step s k := some (s.handle k)

/-- Every callback has signed in a stored row of its own provider and uid; two
callbacks have signed in one row exactly if they agree on provider and uid. -/
structure Identified (s : Identities) : Prop where
  stored : ∀ e ∈ s.sign_ins, ∃ u ∈ s.world.db.users.rows, e.user_id = some u.id ∧
    u.val.provider = some e.provider ∧ u.val.uid = e.uid
  same : ∀ e ∈ s.sign_ins, ∀ e' ∈ s.sign_ins,
    e.provider = e'.provider → e.uid = e'.uid → e.user_id = e'.user_id
  different : ∀ e ∈ s.sign_ins, ∀ e' ∈ s.sign_ins,
    e.user_id = e'.user_id → e.provider = e'.provider ∧ e.uid = e'.uid

/-- The rows that have a uid. -/
def Database.ofUid (db : Database) (uid : Option String) : List (Row User) :=
  db.users.rows.filter fun u => u.val.uid = uid

/-- The tracking filter lets the callback through, and the one row with its uid is the
provider's own; or there is none and the new record is stored. -/
def Recognised (s : Identities) (k : Callback) : Prop :=
  k.request.trackable s.world.db ∧
    match s.world.db.ofUid k.auth.uid with
    | [] => k.auth.stores k.tracked k.digest k.now s.world.db.users
    | [u] => u.val.provider = some k.auth.provider
    | _ => False

variable {s : Identities} {k : Callback} {db : Database} {uid : Option String} {u : Row User}

/-! ### The look-up -/

theorem mem_ofUid : u ∈ db.ofUid uid ↔ u ∈ db.users.rows ∧ u.val.uid = uid := by
  simp [Database.ofUid]

/-- Any row that has the uid may be the answer. -/
theorem find_by_uid_pick (hu : u ∈ db.ofUid uid) :
    User.find_by_uid db.users uid u.id = some u := by
  obtain ⟨hmem, huid⟩ := mem_ofUid.mp hu
  have hfind : (db.users.rows.find? fun v => v.id = u.id && v.val.uid = uid) = some u := by
    rcases Option.eq_none_or_eq_some
      (db.users.rows.find? fun v => v.id = u.id && v.val.uid = uid) with hv | ⟨v, hv⟩
    · exact absurd (List.find?_eq_none.mp hv u hmem) (by simp [huid])
    · have hid : v.id = u.id := by
        have hmatches := List.find?_some hv
        simp only [Bool.and_eq_true, decide_eq_true_eq] at hmatches
        exact hmatches.1
      rw [hv, Table.eq_of_id_eq (List.mem_of_find?_eq_some hv) hmem hid]
  rw [User.find_by_uid, hfind, Option.some_or]

theorem find_by_uid_eq_none_iff_ofUid (pick : Id) :
    User.find_by_uid db.users uid pick = none ↔ db.ofUid uid = [] := by
  rw [find_by_uid_eq_none_iff, Database.ofUid, List.filter_eq_nil_iff]
  simp

/-- With one row that has the uid there is one answer. -/
theorem find_by_uid_of_ofUid (hu : db.ofUid uid = [u]) (pick : Id) :
    User.find_by_uid db.users uid pick = some u := by
  rcases Option.eq_none_or_eq_some (User.find_by_uid db.users uid pick) with hv | ⟨v, hv⟩
  · rw [(find_by_uid_eq_none_iff_ofUid _).mp hv] at hu
    cases hu
  · have hmem : v ∈ db.ofUid uid := mem_ofUid.mpr (mem_of_find_by_uid hv)
    rw [hu] at hmem
    rw [hv, List.mem_singleton.mp hmem]

/-- The record a callback finds or stores. -/
theorem find_or_create_by_uid_eq (auth : Auth) (tracked : Bool) (digest : String) (pick : Id)
    (now : Time) (w : World) :
    (match (Action.exec
        (SessionsController.find_or_create_by_uid auth tracked digest pick now) w).1 with
      | .ok id => id
      | .error _ => none) =
      match User.find_by_uid w.db.users auth.uid pick with
      | some u => some u.id
      | none =>
        if auth.stores tracked digest now w.db.users then some w.db.users.next else none := by
  simp only [SessionsController.find_or_create_by_uid, Action.exec_bind, exec_database,
    Auth.stores, Auth.row]
  rcases Option.eq_none_or_eq_some (User.find_by_uid w.db.users auth.uid pick)
    with hu | ⟨u, hu⟩
  · have hnone : (w.db.users.rows.find? fun u => u.val.uid = auth.uid) = none := by
      simpa using find_by_uid_eq_none_iff.mp hu
    simp only [hu, hnone, Action.exec_ite, Action.exec_bind, exec_insertUser, Action.exec_pure,
      exec_raise]
    generalize auth.fill (fun _ => digest) = account
    -- the callback needs an expiry, a save or bookkeeping, an e-mail, and a row that fits
    by_cases hexpires : auth.expires_at.isNone
    · simp [hexpires]
    by_cases hsave : account.valid? true || tracked
    · by_cases hemail : account.email.isSome
      · by_cases hstorable : User.storable w.db.users (account.toUser now) <;>
          simp [hexpires, hsave, hemail, hstorable]
      · simp [hexpires, hsave, hemail]
    · simp [hexpires, hsave]
  · cases tracked <;> simp [hu]

theorem callback_enter_users (k : Callback) (db : Database) :
    (k.request.enter db).users = db.users := k.request.enter_users rfl db

theorem Callback.signs_in_eq (k : Callback) (w : World) :
    k.signs_in w =
      if k.request.trackable w.db then
        match User.find_by_uid w.db.users k.auth.uid k.pick with
        | some u => some u.id
        | none =>
          if k.auth.stores k.tracked k.digest k.now w.db.users then some w.db.users.next else none
      else none := by
  unfold Callback.signs_in
  rw [find_or_create_by_uid_eq]
  simp only [callback_enter_users]

theorem exec_callback (k : Callback) (w : World) :
    (Action.exec k.request.run w).2.db.users =
      if k.request.trackable w.db then
        match User.find_by_uid w.db.users k.auth.uid k.pick with
        | some u => if k.tracked then (w.db.update_tracked_fields u.id k.now).users else w.db.users
        | none =>
          if k.auth.stores k.tracked k.digest k.now w.db.users then
            w.db.users.insert (k.auth.row k.digest k.now)
          else w.db.users
      else w.db.users := by
  rw [exec_run]
  by_cases htrackable : k.request.trackable w.db
  · rw [if_pos htrackable, if_pos htrackable]
    change (Action.exec
      (SessionsController.facebook k.auth k.tracked k.digest k.pick k.now) _).2.db.users = _
    rw [exec_facebook_world]
    dsimp only
    rw [callback_enter_users]
    cases User.find_by_uid w.db.users k.auth.uid k.pick with
    | some u =>
      dsimp only
      split
      · rw [Database.update_tracked_fields, callback_enter_users]
        rfl
      · exact callback_enter_users k w.db
    | none =>
      dsimp only
      split
      · rfl
      · exact callback_enter_users k w.db
  · rw [if_neg htrackable, if_neg htrackable]

/-! ### The owner of a uid -/

/-- One row has the uid: that of `i`, with the provider. -/
def Database.Owner (db : Database) (provider uid : Option String) (i : Id) : Prop :=
  ∃ u, db.ofUid uid = [u] ∧ u.id = i ∧ u.val.provider = provider

/-- The bookkeeping of a sign-in changes neither the uids nor the providers. -/
theorem ofUid_update_tracked_fields (i : Id) (now : Time) :
    (db.update_tracked_fields i now).ofUid uid = (db.ofUid uid).map fun u =>
      ⟨u.id, if u.id = i then { u.val with updated_at := now } else u.val⟩ := by
  rw [Database.ofUid, Database.ofUid, Database.update_tracked_fields, Table.rows_update,
    List.filter_map]
  congr 1
  refine List.filter_congr fun u _ => ?_
  simp only [Function.comp]
  split <;> rfl

theorem ofUid_insert (db : Database) (a : User) :
    ({ db with users := db.users.insert a } : Database).ofUid uid =
      db.ofUid uid ++ if a.uid = uid then [⟨db.users.next, a⟩] else [] := by
  rw [Database.ofUid, Table.rows_insert, List.filter_append, Database.ofUid]
  congr 1
  by_cases ha : a.uid = uid <;> simp [ha]

theorem Auth.row_uid (auth : Auth) (digest : String) (now : Time) :
    (auth.row digest now).uid = auth.uid := rfl

/-- A uid keeps its owner. -/
theorem owner_handle {provider : Option String} {i : Id} (h : s.world.db.Owner provider uid i) :
    (s.handle k).world.db.Owner provider uid i := by
  obtain ⟨u, hu, hid, hprovider⟩ := h
  have hsame : ∀ db : Database, db.users = s.world.db.users → db.Owner provider uid i :=
    fun db hdb => ⟨u, by rw [Database.ofUid, hdb]; exact hu, hid, hprovider⟩
  have husers := exec_callback k s.world
  change (s.handle k).world.db.users = _ at husers
  split at husers
  · split at husers
    · next v _ =>
      split at husers
      · refine ⟨⟨u.id, if u.id = v.id then { u.val with updated_at := k.now } else u.val⟩,
          ?_, hid, ?_⟩
        · rw [Database.ofUid, husers]
          exact (ofUid_update_tracked_fields v.id k.now).trans (by rw [hu]; rfl)
        · split <;> exact hprovider
      · exact hsame _ husers
    · next hnone =>
      split at husers
      -- a new row has a uid that no row had
      · have hne : k.auth.uid ≠ uid := by
          rintro rfl
          rw [(find_by_uid_eq_none_iff_ofUid _).mp hnone] at hu
          cases hu
        refine ⟨u, ?_, hid, hprovider⟩
        rw [Database.ofUid, husers]
        refine (ofUid_insert s.world.db (k.auth.row k.digest k.now)).trans ?_
        rw [hu, Auth.row_uid, if_neg hne, List.append_nil]
      · exact hsame _ husers
  · exact hsame _ husers

/-- Every callback so far has signed in the owner of its uid, which is its provider's. -/
def Known (s : Identities) : Prop :=
  ∀ e ∈ s.sign_ins, ∃ i, e.user_id = some i ∧ s.world.db.Owner (some e.provider) e.uid i

theorem Known.identified (h : Known s) : Identified s where
  stored e he := by
    obtain ⟨_, hid, u, hu, rfl, hprovider⟩ := h e he
    obtain ⟨hmem, huid⟩ := mem_ofUid.mp (hu ▸ List.mem_singleton_self u)
    exact ⟨u, hmem, hid, hprovider, huid⟩
  same e he e' he' _ huid := by
    obtain ⟨_, hid, u, hu, rfl, -⟩ := h e he
    obtain ⟨_, hid', u', hu', rfl, -⟩ := h e' he'
    obtain rfl : u = u' := List.singleton_inj.mp (hu.symm.trans (huid ▸ hu'))
    rw [hid, hid']
  different e he e' he' hsame := by
    obtain ⟨_, hid, u, hu, rfl, hprovider⟩ := h e he
    obtain ⟨_, hid', u', hu', rfl, hprovider'⟩ := h e' he'
    obtain ⟨hmem, huid⟩ := mem_ofUid.mp (hu ▸ List.mem_singleton_self u)
    obtain ⟨hmem', huid'⟩ := mem_ofUid.mp (hu' ▸ List.mem_singleton_self u')
    -- the same key names the same row
    obtain rfl : u = u' :=
      Table.eq_of_id_eq hmem hmem' (Option.some.inj (hid.symm.trans (hsame.trans hid')))
    exact ⟨Option.some.inj (hprovider.symm.trans hprovider'), huid.symm.trans huid'⟩

/-! ### One callback -/

/-- What a recognised callback signs in. -/
theorem Recognised.signs_in (h : Recognised s k) :
    ∃ i, k.signs_in s.world = some i ∧
      (s.handle k).world.db.Owner (some k.auth.provider) k.auth.uid i := by
  obtain ⟨htrackable, hrow⟩ := h
  rw [Callback.signs_in_eq, if_pos htrackable]
  split at hrow
  · next hnone =>
    have hfind := (find_by_uid_eq_none_iff_ofUid k.pick).mpr hnone
    have husers := exec_callback k s.world
    rw [if_pos htrackable, hfind] at husers
    dsimp only at husers
    rw [if_pos hrow] at husers
    refine ⟨s.world.db.users.next, by simp [hfind, hrow],
      ⟨s.world.db.users.next, k.auth.row k.digest k.now⟩, ?_, rfl, rfl⟩
    change (Action.exec k.request.run s.world).2.db.ofUid k.auth.uid = _
    rw [Database.ofUid, husers]
    refine (ofUid_insert s.world.db (k.auth.row k.digest k.now)).trans ?_
    rw [hnone, Auth.row_uid, if_pos rfl, List.nil_append]
  · next u hu =>
    refine ⟨u.id, by rw [find_by_uid_of_ofUid hu], owner_handle ⟨u, hu, rfl, hrow⟩⟩
  · exact hrow.elim

theorem known_step (h : Known s) (hrecognised : Recognised s k) : Known (s.handle k) := by
  intro e he
  rcases List.mem_append.mp he with he | he
  · obtain ⟨i, hid, howner⟩ := h e he
    exact ⟨i, hid, owner_handle howner⟩
  · obtain rfl := List.mem_singleton.mp he
    exact hrecognised.signs_in

theorem Callback.picking_signs_in_eq (k : Callback) (i : Id) (w : World) :
    (k.picking i).signs_in w =
      if k.request.trackable w.db then
        match User.find_by_uid w.db.users k.auth.uid i with
        | some u => some u.id
        | none =>
          if k.auth.stores k.tracked k.digest k.now w.db.users then some w.db.users.next else none
      else none :=
  (k.picking i).signs_in_eq w

/-- The row that is picked is the row that is signed in. -/
theorem signs_in_pick (htrackable : k.request.trackable s.world.db)
    (hu : u ∈ s.world.db.ofUid k.auth.uid) : (k.picking u.id).signs_in s.world = some u.id := by
  rw [Callback.picking_signs_in_eq, if_pos htrackable, find_by_uid_pick hu]

/-- A callback that signs in one row of its provider, whichever is picked, is recognised. -/
theorem recognised_of_picking
    (h : ∀ i j, Identified (s.handle (k.picking i)) ∧
      (k.picking i).signs_in s.world = (k.picking j).signs_in s.world) : Recognised s k := by
  have hstored : ∀ i, ∃ u ∈ (s.handle (k.picking i)).world.db.users.rows,
      (k.picking i).signs_in s.world = some u.id ∧ u.val.provider = some k.auth.provider := by
    intro i
    obtain ⟨u, hmem, hid, hprovider, -⟩ := (h i i).1.stored
      ⟨k.auth.provider, k.auth.uid, (k.picking i).signs_in s.world⟩
      (List.mem_append_right _ (List.mem_singleton_self _))
    exact ⟨u, hmem, hid, hprovider⟩
  have htrackable : k.request.trackable s.world.db := by
    obtain ⟨u, -, hid, -⟩ := hstored k.pick
    rw [Callback.signs_in_eq] at hid
    exact (Option.ite_none_right_eq_some.mp hid).1
  refine ⟨htrackable, ?_⟩
  split
  · next hnone =>
    obtain ⟨u, -, hid, -⟩ := hstored k.pick
    rw [Callback.picking_signs_in_eq, (find_by_uid_eq_none_iff_ofUid _).mpr hnone] at hid
    exact (Option.ite_none_right_eq_some.mp (Option.ite_none_right_eq_some.mp hid).2).1
  · next u hu =>
    -- the row signed in is the row found, so its provider is the row's
    obtain ⟨v, hmem, hid, hprovider⟩ := hstored u.id
    rw [signs_in_pick htrackable (hu ▸ List.mem_singleton_self u)] at hid
    obtain ⟨u', hu', hid', hprovider'⟩ :=
      owner_handle (k := k.picking u.id) ⟨u, hu, Option.some.inj hid, rfl⟩
    obtain rfl : u' = v := Table.eq_of_id_eq
      (mem_ofUid.mp (hu' ▸ List.mem_singleton_self u')).1 hmem hid'
    rw [← hprovider', hprovider]
  · next hnil hsingle =>
    -- two rows have the uid, and either may be picked
    obtain ⟨u, v, rest, huv⟩ : ∃ u v rest, s.world.db.ofUid k.auth.uid = u :: v :: rest := by
      match hrows : s.world.db.ofUid k.auth.uid with
      | [] => exact absurd hrows hnil
      | [u] => exact absurd hrows (hsingle u)
      | u :: v :: rest => exact ⟨u, v, rest, rfl⟩
    have hpick := (h u.id v.id).2
    rw [signs_in_pick htrackable (by simp [huv]), signs_in_pick htrackable (by simp [huv])] at hpick
    have hdistinct := (List.pairwise_map.mp s.world.db.users.distinct).sublist
      (List.filter_sublist (p := fun u : Row User => u.val.uid = k.auth.uid))
    change (s.world.db.ofUid k.auth.uid).Pairwise _ at hdistinct
    rw [huv] at hdistinct
    exact absurd (Option.some.inj hpick)
      ((List.pairwise_cons.mp hdistinct).1 v List.mem_cons_self)

/-- A callback keeps the identities right, whichever row is picked, and signs in one row,
exactly if it is `Recognised`. -/
theorem identified_step_iff (h : Known s) :
    (∀ i j, Identified (s.handle (k.picking i)) ∧
      (k.picking i).signs_in s.world = (k.picking j).signs_in s.world) ↔ Recognised s k := by
  refine ⟨recognised_of_picking, fun hrecognised i j => ⟨?_, ?_⟩⟩
  · exact (known_step h (k := k.picking i) hrecognised).identified
  -- the look-up leaves no choice
  · obtain ⟨-, hrow⟩ := hrecognised
    have hfind : ∀ i j, User.find_by_uid s.world.db.users k.auth.uid i =
        User.find_by_uid s.world.db.users k.auth.uid j := by
      intro i j
      split at hrow
      · next hnone =>
        rw [(find_by_uid_eq_none_iff_ofUid i).mpr hnone,
          (find_by_uid_eq_none_iff_ofUid j).mpr hnone]
      · next u hu => rw [find_by_uid_of_ofUid hu, find_by_uid_of_ofUid hu]
      · exact hrow.elim
    rw [Callback.picking_signs_in_eq, Callback.picking_signs_in_eq, hfind i j]

/-- In every state of a sequence of recognised callbacks the identities are right. A next
callback keeps them right and signs in one row, whichever rows the look-up picks, exactly if
it is `Recognised` as well. -/
theorem oauth_identity (s : Identities) (h : callbacks.ReachableWithin Recognised s) :
    Identified s ∧ ∀ k, (∀ i j, Identified (s.handle (k.picking i)) ∧
      (k.picking i).signs_in s.world = (k.picking j).signs_in s.world) ↔ Recognised s k := by
  have hknown : Known s := by
    refine System.ReachableWithin.invariant (P := Known) h ?_ ?_
    · intro s hinit e he
      simp [show s.sign_ins = [] from hinit] at he
    · intro s k t hknown hrecognised hstep
      obtain rfl : s.handle k = t := by simpa [callbacks] using hstep
      exact known_step hknown hrecognised
  exact ⟨hknown.identified, fun _ => identified_step_iff hknown⟩

/-! ### Concrete runs -/

/-- A Facebook callback for the uid `"7"`. -/
def Callback.facebook : Callback where
  session := none
  url := "http://gallery/auth/facebook/callback"
  now := 0
  auth := ⟨"facebook", some "7", some "ada@example.com", some "Ada", some "token", some 1⟩
  tracked := true
  digest := "digest"
  pick := 1

/-- A developer callback with that uid. -/
def Callback.developer : Callback :=
  { Callback.facebook with
    url := "http://gallery/auth/developer/callback"
    auth := ⟨"developer", some "7", some "eve@example.com", some "Eve", none, none⟩ }

/-- Nobody has an account yet. -/
def Identities.none : Identities := ⟨.ofDatabase .empty, []⟩

theorem none_callbacks : callbacks.init .none := rfl

/-- The first Facebook callback of a user. -/
theorem oauth_identity_facebook :
    let s := Identities.none.handle .facebook
    s.sign_ins = [⟨"facebook", some "7", some 1⟩] ∧ Identified s ∧
      ∀ k, (∀ i j, Identified (s.handle (k.picking i)) ∧
        (k.picking i).signs_in s.world = (k.picking j).signs_in s.world) ↔ Recognised s k :=
  ⟨by decide, oauth_identity _ (.step (.init none_callbacks)
    ⟨by decide, (by decide : Auth.stores Callback.facebook.auth true "digest" 0 .empty)⟩ rfl)⟩

/-- The developer callback signs in the Facebook user. -/
theorem uid_of_other_provider :
    ∃ s, callbacks.Reachable s ∧ ¬ Identified s := by
  refine ⟨(Identities.none.handle .facebook).handle .developer,
    .step (.step (.init none_callbacks) rfl) rfl, fun h => ?_⟩
  have hsame := h.different ⟨"facebook", some "7", some 1⟩ (by decide)
    ⟨"developer", some "7", some 1⟩ (by decide) rfl
  exact absurd hsame.1 (by decide)

end Gallery
