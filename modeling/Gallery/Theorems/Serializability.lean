import Gallery.Store.Deferred
import Gallery.Theorems.NaturalKeys
import Gallery.Theorems.Toggles

/-!
# Interleaved requests as requests one at a time

`Twin` runs the statements of any number of requests next to the server's own actions:
whenever a request issues the look-up that decides what it is going to do, the second
database goes through the whole of the action at once. As long as no request looks a key
up while another one is about to change its rows, the two databases agree on every key
that no request is about to change, so the interleaving did what the actions do when
they are run one at a time, in the order of their look-ups.

## Main definitions

* `Phase.asks`, `Phase.owes` — the key a request looks up, and the key it is going to change
* `Phase.at_once` — the action that a look-up stands for
* `Twin`, `twin` — the interleaving next to its actions
* `Isolated` — looking up only what no other request is about to change

## Main results

* `Twin.Inv.issue` — what one statement keeps
* `serializable` — runs of such statements
-/

namespace Gallery

open Store Rails App Semantics

/-- The natural keys that have a row. -/
def Database.keys (db : Database) : Set NaturalKey := {key | 0 < db.count key}

theorem Database.mem_keys {db : Database} {key : NaturalKey} : key ∈ db.keys ↔ 0 < db.count key :=
  Iff.rfl

/-- The key of a like. -/
def Like.key (l : Row Like) : NaturalKey := .like l.val.user_id l.val.picture_id

namespace Phase

/-- The key that a request looks up to decide what it does. -/
def asks : Phase → Option NaturalKey
  | find_url url _ => some (.url url)
  | look_up (.like user_id pic_id) => (whereInteger pic_id).map (.like user_id)
  | look_up (.subscribe user_id cat_id) => (whereInteger cat_id).map (.subscription user_id)
  | _ => none

/-- The key whose rows a request is going to change. -/
def owes (db : Database) : Phase → Option NaturalKey
  | insert_url url _ => if NaturalKey.storable (.url url) then some (.url url) else none
  | commit_url url _ => some (.url url)
  | validate key => if key.storable then some key else none
  | insert key => if key.storable then some key else none
  | commit key => some key
  | select_likes user_id picture_id => some (.like user_id picture_id)
  | delete_likes ids => (ids.head?.bind db.likes.find?).map Like.key
  | delete_subscriptions user_id category_id => some (.subscription user_id category_id)
  | _ => none

/-- The change is an insert. -/
def adds : Phase → Bool
  | insert_url .. | commit_url .. | validate _ | insert _ | commit _ => true
  | _ => false

end Phase

/-- The action of a job. -/
def Job.action (account : Id → User) (now : Time) : Job → App Response
  | .like user_id pic_id => PicturesController.like ⟨user_id, account user_id⟩ pic_id none now
  | .subscribe user_id cat_id => CategoriesController.subscribe ⟨user_id, account user_id⟩ cat_id
  | .view => pure .page

/-- What a statement stands for when it is the look-up that decides: the whole of
`find_or_create_by_url`, or the whole of the action. -/
def Phase.at_once (account : Id → User) (now : Time) (db : Database) : Phase → Database
  | find_url url _ => (Action.exec (Url.find_or_create_by_url url) (.ofDatabase db)).2.db
  | look_up job => (Action.exec (job.action account now) (.ofDatabase db)).2.db
  | _ => db

/-- The interleaved requests, and a database that sees one action after the other. -/
structure Twin where
  requests : Requests
  serial : Database

/-- The interleaving of statements next to the actions they belong to. -/
def twin (account : Id → User) (clock : ℕ → Time) : System Twin Statement where
  init s := statements.init s.requests ∧ s.serial = s.requests.db
  step s a := (statements.step s.requests a).map fun requests =>
    { requests := requests
      serial := match a with
        | .arrive .. => s.serial
        | .issue i => (s.requests.phase i).at_once account (clock i) s.serial }

/-- A look-up asks for a key that no other request is about to change. -/
def Isolated (s : Twin) : Statement → Prop
  | .arrive .. => True
  | .issue i => ∀ key, (s.requests.phase i).asks = some key →
      ∀ j, j ≠ i → (s.requests.phase j).owes s.requests.db ≠ some key

/-! ### Changing one key -/

/-- One key gains its row or loses it, and nothing else changes. -/
structure Changes (db db' : Database) (key : NaturalKey) : Prop where
  keys : db'.keys = symmDiff db.keys {key}
  unique : ∀ k, db'.count k ≤ 1
  likes : ∀ l ∈ db.likes.rows, Like.key l ≠ key → l ∈ db'.likes.rows

section Changes

variable {db db' : Database} {key : NaturalKey} {now : Time}

theorem Changes.of_count (h : Changes db db' key) {db'' : Database}
    (hcount : ∀ k, db''.count k = db'.count k) (hlikes : db''.likes = db'.likes) :
    Changes db db'' key where
  keys := by
    rw [← h.keys]
    ext k
    rw [Database.mem_keys, Database.mem_keys, hcount]
  unique k := hcount k ▸ h.unique k
  likes l hl hne := hlikes ▸ h.likes l hl hne

theorem changes_add (hunique : ∀ k, db.count k ≤ 1) (hkey : db.count key = 0) :
    Changes db (db.add key) key where
  keys := by
    ext k
    rw [Database.mem_keys, count_add]
    by_cases hk : k = key
    · simp [hk, mem_symmDiff_self, Database.mem_keys, hkey]
    · simp [hk, mem_symmDiff_of_ne hk, Database.mem_keys]
  unique k := by
    rw [count_add]
    by_cases hk : k = key
    · simp [hk, hkey]
    · simpa [hk] using hunique k
  likes l hl _ := by
    cases key <;> simp [Database.add, hl]

theorem changes_remove (hunique : ∀ k, db.count k ≤ 1) (hkey : key ∈ db.keys)
    (hcount : ∀ k, db'.count k = if k = key then 0 else db.count k)
    (hlikes : ∀ l ∈ db.likes.rows, Like.key l ≠ key → l ∈ db'.likes.rows) :
    Changes db db' key where
  keys := by
    ext k
    rw [Database.mem_keys, hcount]
    by_cases hk : k = key
    · simp [hk, mem_symmDiff_self, hkey]
    · simp [hk, mem_symmDiff_of_ne hk, Database.mem_keys]
  unique k := by
    rw [hcount]
    split
    · exact Nat.zero_le 1
    · exact hunique k
  likes := hlikes

/-- Removing the likes of one key. -/
theorem count_remove_likes {u p : Id} {q : Row Like → Bool}
    (hlikes : db'.likes = db.likes.delete q) (hsubs : db'.user_categories = db.user_categories)
    (hurls : db'.urls = db.urls) (hq : ∀ l ∈ db.likes.rows, q l ↔ Like.key l = .like u p)
    (k : NaturalKey) : db'.count k = if k = .like u p then 0 else db.count k := by
  cases k with
  | like u' p' =>
    have hcount : db'.count (.like u' p') = db.likes.rows.countP fun l =>
        (l.val.user_id = u' && l.val.picture_id = p') && !q l := by
      rw [Database.count, hlikes, Table.rows_delete, List.countP_filter]
    rw [hcount]
    split_ifs with hk
    · obtain ⟨rfl, rfl⟩ := NaturalKey.like.inj hk
      refine List.countP_eq_zero.mpr fun l hl => ?_
      have hkey : q l ↔ l.val.user_id = u' ∧ l.val.picture_id = p' := by
        simpa [Like.key] using hq l hl
      grind
    · refine List.countP_congr fun l hl => ?_
      have hkey : q l ↔ l.val.user_id = u ∧ l.val.picture_id = p := by
        simpa [Like.key] using hq l hl
      simp only [NaturalKey.like.injEq] at hk
      grind
  | subscription u' c => simp [Database.count, hsubs]
  | url url => simp [Database.count, hurls]

/-- Removing the subscriptions of one key. -/
theorem count_remove_subscriptions {u c : Id} (k : NaturalKey) :
    ({ db with
      user_categories := db.user_categories.delete fun s =>
        s.val.user_id = u && s.val.category_id = c } : Database).count k =
      if k = .subscription u c then 0 else db.count k := by
  cases k with
  | like u' p => simp [Database.count]
  | subscription u' c' =>
    rw [Database.count, Table.rows_delete, List.countP_filter]
    split_ifs with hk
    · obtain ⟨rfl, rfl⟩ := NaturalKey.subscription.inj hk
      exact List.countP_eq_zero.mpr fun s _ => by simp
    · refine List.countP_congr fun s _ => ?_
      simp only [NaturalKey.subscription.injEq] at hk
      grind
  | url url => simp [Database.count]

/-- A key with one row names that row. -/
theorem eq_of_count_le_one {α : Type} {rows : List α} {p : α → Bool} {a b : α}
    (hcount : rows.countP p ≤ 1) (ha : a ∈ rows) (hb : b ∈ rows) (hpa : p a) (hpb : p b) :
    a = b := by
  rw [List.countP_eq_length_filter] at hcount
  have ha : a ∈ rows.filter p := List.mem_filter.mpr ⟨ha, hpa⟩
  have hb : b ∈ rows.filter p := List.mem_filter.mpr ⟨hb, hpb⟩
  obtain ⟨x, hx⟩ := List.length_eq_one_iff.mp
    (Nat.le_antisymm hcount (List.length_pos_of_mem ha))
  rw [hx, List.mem_singleton] at ha hb
  exact ha.trans hb.symm

end Changes

/-! ### The invariant -/

/-- A request that owes an insert has found no row, one that owes a deletion has found one,
and the like it is about to delete is there. -/
structure Phase.Sound (db : Database) (phase : Phase) : Prop where
  owes : ∀ key, phase.owes db = some key → (key ∈ db.keys ↔ phase.adds = false)
  ids : ∀ ids, phase = .delete_likes ids → ids = [] ∨ ∃ l ∈ db.likes.rows, ids = [l.id]

/-- The key that a request owes. -/
def Twin.owes (s : Twin) (i : ℕ) : Option NaturalKey := (s.requests.phase i).owes s.requests.db

/-- The two databases differ in the keys that are owed, and each key has at most one row in
either. -/
structure Twin.Inv (s : Twin) : Prop where
  deferred : Deferred s.requests.db.keys s.serial.keys s.owes
  sound : ∀ i, (s.requests.phase i).Sound s.requests.db
  unique : ∀ key, s.requests.db.count key ≤ 1
  serial_unique : ∀ key, s.serial.count key ≤ 1

namespace Phase

variable {db db' : Database} {phase : Phase} {key : NaturalKey}

theorem owes_delete_likes {l : Row Like} (hl : l ∈ db.likes.rows) :
    (delete_likes [l.id]).owes db = some (Like.key l) := by
  have hfind : db.likes.find? l.id = some l := Table.find?_eq_some_iff.mpr ⟨hl, rfl⟩
  simp [owes, hfind]

theorem sound_of_none (hnone : phase.owes db = none) (hids : ∀ ids, phase ≠ .delete_likes ids) :
    phase.Sound db where
  owes key hkey := by simp [hnone] at hkey
  ids ids h := absurd h (hids ids)

/-- Another request's change leaves what a request owes as it is. -/
theorem owes_of_changes (h : phase.Sound db) (hchanges : Changes db db' key)
    (hne : phase.owes db ≠ some key) : phase.owes db' = phase.owes db := by
  cases phase with
  | delete_likes ids =>
    rcases h.ids ids rfl with rfl | ⟨l, hl, rfl⟩
    · rfl
    · rw [owes_delete_likes hl] at hne ⊢
      exact owes_delete_likes (hchanges.likes l hl fun heq => hne (congrArg some heq))
  | _ => rfl

theorem Sound.of_changes (h : phase.Sound db) (hchanges : Changes db db' key)
    (hne : phase.owes db ≠ some key) : phase.Sound db' where
  owes k hk := by
    rw [owes_of_changes h hchanges hne] at hk
    have hkey : k ≠ key := fun heq => hne (heq ▸ hk)
    rw [hchanges.keys, mem_symmDiff_of_ne hkey]
    exact h.owes k hk
  ids ids hphase := by
    subst hphase
    rcases h.ids ids rfl with rfl | ⟨l, hl, rfl⟩
    · exact .inl rfl
    · rw [owes_delete_likes hl] at hne
      exact .inr ⟨l, hchanges.likes l hl fun heq => hne (congrArg some heq), rfl⟩

end Phase

/-- What a statement does: it changes nothing, it decides to change the key it has looked
up, or it changes the key it owes. -/
inductive Move (db serial : Database) (phase : Phase) : Database → Phase → Database → Prop
  | stays {phase' : Phase} {serial' : Database} (howes : phase'.owes db = phase.owes db)
      (hsound : phase'.Sound db) (hserial : ∀ key, serial'.count key = serial.count key) :
      Move db serial phase db phase' serial'
  | decides {phase' : Phase} {serial' : Database} {key : NaturalKey}
      (hnone : phase.owes db = none) (hasks : phase.asks = some key)
      (howes : phase'.owes db = some key) (hsound : phase'.Sound db)
      (hchanges : Changes serial serial' key) : Move db serial phase db phase' serial'
  | acts {db' : Database} {phase' : Phase} {key : NaturalKey} (howes : phase.owes db = some key)
      (hnone : phase'.owes db' = none) (hsound : phase'.Sound db')
      (hchanges : Changes db db' key) : Move db serial phase db' phase' serial

namespace Twin

variable {s : Twin} {i : ℕ} {db' serial' : Database} {phase' : Phase}

/-- The state after request `i` has issued a statement. -/
def moved (s : Twin) (i : ℕ) (db' : Database) (phase' : Phase) (serial' : Database) : Twin :=
  ⟨⟨db', Function.update s.requests.phase i phase'⟩, serial'⟩

theorem owes_moved
    (hother : ∀ j, j ≠ i →
      (s.requests.phase j).owes db' = (s.requests.phase j).owes s.requests.db) :
    (s.moved i db' phase' serial').owes = Function.update s.owes i (phase'.owes db') := by
  funext j
  by_cases hj : j = i
  · simp [owes, moved, hj]
  · simp [owes, moved, hj, hother j hj]

theorem sound_moved (hsound : phase'.Sound db')
    (hother : ∀ j, j ≠ i → (s.requests.phase j).Sound db') (j : ℕ) :
    ((s.moved i db' phase' serial').requests.phase j).Sound db' := by
  by_cases hj : j = i
  · simpa [moved, hj] using hsound
  · simpa [moved, hj] using hother j hj

/-- What one statement keeps. -/
theorem Inv.move (h : s.Inv) (hisolated : Isolated s (.issue i))
    (hmove : Move s.requests.db s.serial (s.requests.phase i) db' phase' serial') :
    (s.moved i db' phase' serial').Inv := by
  cases hmove with
  | stays howes hsound hserial =>
    have hkeys : serial'.keys = s.serial.keys := by
      ext key
      rw [Database.mem_keys, Database.mem_keys, hserial]
    refine ⟨?_, sound_moved hsound fun j _ => h.sound j, h.unique, fun key => ?_⟩
    · have hself : Function.update s.owes i ((s.requests.phase i).owes s.requests.db) = s.owes :=
        Function.update_eq_self i s.owes
      rw [owes_moved fun _ _ => rfl, howes, hself]
      simpa only [moved, hkeys] using h.deferred
    · exact hserial key ▸ h.serial_unique key
  | decides hnone hasks howes hsound hchanges =>
    refine ⟨?_, sound_moved hsound fun j _ => h.sound j, h.unique, hchanges.unique⟩
    rw [owes_moved fun _ _ => rfl, howes]
    simp only [moved, hchanges.keys]
    refine h.deferred.promise hnone fun j hj => ?_
    by_cases hji : j = i
    · rw [hji, Twin.owes, hnone] at hj
      cases hj
    · exact hisolated _ hasks j hji hj
  | acts howes hnone hsound hchanges =>
    have hne : ∀ j, j ≠ i → (s.requests.phase j).owes s.requests.db ≠ some _ :=
      fun j hji hj => hji (h.deferred.alone j i _ hj howes)
    refine ⟨?_, sound_moved hsound fun j hj => (h.sound j).of_changes hchanges (hne j hj),
      hchanges.unique, h.serial_unique⟩
    rw [owes_moved fun j hj => Phase.owes_of_changes (h.sound j) hchanges (hne j hj), hnone]
    simp only [moved, hchanges.keys]
    exact h.deferred.keep howes

end Twin

/-! ### The actions at once -/

section AtOnce

variable {account : Id → User} {now : Time} {db : Database}

theorem url?_eq_none_iff {url : String} : db.url? url = none ↔ db.count (.url url) = 0 := by
  simp [Database.url?, Database.count, List.countP_eq_zero, List.find?_eq_none]

theorem find_url_at_once (url : String) (job : Job) :
    (Phase.find_url url job).at_once account now db =
      if db.count (.url url) = 0 ∧ NaturalKey.storable (.url url) then db.add (.url url)
      else db := by
  simp only [Phase.at_once, exec_find_or_create, World.ofDatabase]
  cases hurl : db.url? url with
  | none =>
    rw [url?_eq_none_iff] at hurl
    simp only [hurl, true_and, NaturalKey.storable]
    split_ifs <;> rfl
  | some r =>
    have hcount : db.count (.url url) ≠ 0 := fun h => by simp [url?_eq_none_iff.mpr h] at hurl
    simp [hcount]

theorem status_iff_keys {u : Id} {user : User} {pic_id : Option String} :
    PicturesController.status db ⟨u, user⟩ pic_id = true ↔
      ∃ p, whereInteger pic_id = some p ∧ .like u p ∈ db.keys := by
  simp only [PicturesController.status, Database.mem_keys, Database.count, List.any_eq_true,
    List.countP_pos_iff, Bool.and_eq_true, decide_eq_true_eq]
  constructor
  · rintro ⟨l, hl, huser, hp⟩
    exact ⟨l.val.picture_id, hp, l, hl, huser, rfl⟩
  · rintro ⟨p, hp, l, hl, huser, rfl⟩
    exact ⟨l, hl, huser, hp⟩

theorem current_sub_iff_keys {u : Id} {user : User} {cat_id : Option String} :
    CategoriesController.current_sub db ⟨u, user⟩ cat_id = true ↔
      ∃ c, whereInteger cat_id = some c ∧ .subscription u c ∈ db.keys := by
  simp only [CategoriesController.current_sub, Database.mem_keys, Database.count,
    List.any_eq_true, List.countP_pos_iff, Bool.and_eq_true, decide_eq_true_eq]
  constructor
  · rintro ⟨s, hs, huser, hc⟩
    exact ⟨s.val.category_id, hc, s, hs, huser, rfl⟩
  · rintro ⟨c, hc, s, hs, huser, rfl⟩
    exact ⟨s, hs, huser, hc⟩

theorem afterLike_unset {u : Id} {user : User} {s : String}
    (hstatus : PicturesController.status db ⟨u, user⟩ (some s) = true) :
    Job.afterLike db u (some s) = match parseInteger s with
      | none => .done
      | some p => .select_likes u p := by
  refine (if_pos hstatus).trans ?_
  cases h : parseInteger s <;> simp [h]

theorem afterLike_set {u : Id} {user : User} {pic_id : Option String}
    (hstatus : PicturesController.status db ⟨u, user⟩ pic_id = false) :
    Job.afterLike db u pic_id = match assignInteger pic_id with
      | none => .done
      | some p => .validate (.like u p) := by
  refine (if_neg (Bool.eq_false_iff.mp hstatus)).trans ?_
  cases assignInteger pic_id <;> rfl

theorem afterSubscribe_unset {u c : Id} {user : User} {cat_id : Option String}
    (hsub : CategoriesController.current_sub db ⟨u, user⟩ cat_id = true)
    (hc : whereInteger cat_id = some c) :
    Job.afterSubscribe db u cat_id = .delete_subscriptions u c := by
  refine (if_pos hsub).trans ?_
  rw [hc]

theorem afterSubscribe_set {u : Id} {user : User} {cat_id : Option String}
    (hsub : CategoriesController.current_sub db ⟨u, user⟩ cat_id = false) :
    Job.afterSubscribe db u cat_id = match assignInteger cat_id with
      | none => .done
      | some c => .validate (.subscription u c) := by
  refine (if_neg (Bool.eq_false_iff.mp hsub)).trans ?_
  cases assignInteger cat_id <;> rfl

/-- A like that is there is removed, if PostgreSQL reads the parameter. -/
theorem like_at_once_unset {u : Id} {s : String}
    (hstatus : PicturesController.status db ⟨u, account u⟩ (some s) = true) :
    (Phase.look_up (.like u (some s))).at_once account now db = match parseInteger s with
      | none => db
      | some p => db.destroyLikes fun l => l.val.user_id = u && l.val.picture_id = p := by
  have hrun : Action.exec (PicturesController.like ⟨u, account u⟩ (some s) none now)
      (.ofDatabase db) = _ := exec_like_unset hstatus
  simp only [Phase.at_once, Job.action, hrun]
  cases parseInteger s <;> rfl

/-- One that is not there is stored, if it can be. -/
theorem like_at_once_set {u : Id} {pic_id : Option String}
    (hstatus : PicturesController.status db ⟨u, account u⟩ pic_id = false) :
    (Phase.look_up (.like u pic_id)).at_once account now db = match assignInteger pic_id with
      | none => db
      | some p => if fitsInteger p then db.addLike u p now else db := by
  have hrun : Action.exec (PicturesController.like ⟨u, account u⟩ pic_id none now)
      (.ofDatabase db) = _ := exec_like_set hstatus
  simp only [Phase.at_once, Job.action, hrun]
  cases assignInteger pic_id with
  | none => rfl
  | some p =>
    dsimp only
    split_ifs <;> rfl

theorem subscribe_at_once_unset {u : Id} {cat_id : Option String}
    (hsub : CategoriesController.current_sub db ⟨u, account u⟩ cat_id = true) :
    (Phase.look_up (.subscribe u cat_id)).at_once account now db =
      { db with
        user_categories := db.user_categories.delete fun s =>
          s.val.user_id = u && whereInteger cat_id = some s.val.category_id } := by
  have hrun := exec_subscribe_unset (w := .ofDatabase db) hsub
  simp only [Phase.at_once, Job.action, hrun]
  rfl

theorem subscribe_at_once_set {u : Id} {cat_id : Option String}
    (hsub : CategoriesController.current_sub db ⟨u, account u⟩ cat_id = false) :
    (Phase.look_up (.subscribe u cat_id)).at_once account now db = match assignInteger cat_id with
      | none => db
      | some c =>
        if fitsInteger c then { db with user_categories := db.user_categories.insert ⟨u, c⟩ }
        else db := by
  have hrun := exec_subscribe_set (w := .ofDatabase db) hsub
  simp only [Phase.at_once, Job.action, hrun]
  cases assignInteger cat_id with
  | none => rfl
  | some p =>
    dsimp only
    split_ifs <;> rfl

end AtOnce

/-! ### One statement -/

section Moves

variable {account : Id → User} {now : Time} {db serial : Database}

theorem Phase.sound_of_adds {phase : Phase} (hadds : phase.adds = true)
    (hkey : ∀ key, phase.owes db = some key → db.count key = 0) : phase.Sound db where
  owes key howes := by simp [Database.mem_keys, hkey key howes, hadds]
  ids ids hphase := by simp [hphase, Phase.adds] at hadds

theorem Phase.Sound.count_eq_zero {phase : Phase} {key : NaturalKey} (h : phase.Sound db)
    (hadds : phase.adds = true) (howes : phase.owes db = some key) : db.count key = 0 := by
  have hkey := h.owes key howes
  rw [hadds, Database.mem_keys] at hkey
  simpa using hkey

theorem move_find_url {url : String} {job : Job} (hserial : ∀ key, serial.count key ≤ 1)
    (hagree : .url url ∈ db.keys ↔ .url url ∈ serial.keys) :
    Move db serial (.find_url url job) ((Phase.find_url url job).issue db).1
      ((Phase.find_url url job).issue db).2
      ((Phase.find_url url job).at_once account now serial) := by
  rw [Phase.issue, find_url_at_once]
  rw [Database.mem_keys, Database.mem_keys] at hagree
  by_cases hcount : db.count (.url url) = 0
  · have hcount' : serial.count (.url url) = 0 := by omega
    by_cases hstorable : NaturalKey.storable (.url url)
    · rw [if_pos hcount, if_pos ⟨hcount', hstorable⟩]
      refine .decides rfl rfl (by simp [Phase.owes, hstorable]) (Phase.sound_of_adds rfl ?_)
        (changes_add hserial hcount')
      intro key howes
      obtain rfl : NaturalKey.url url = key := by simpa [Phase.owes, hstorable] using howes
      exact hcount
    · rw [if_pos hcount, if_neg fun h => hstorable h.2]
      have hnone : (Phase.insert_url url job).owes db = none := by simp [Phase.owes, hstorable]
      exact .stays hnone (Phase.sound_of_none hnone (by simp)) fun _ => rfl
  · have hcount' : serial.count (.url url) ≠ 0 := by omega
    rw [if_neg hcount, if_neg fun h => hcount' h.1]
    exact .stays rfl (Phase.sound_of_none rfl (by simp)) fun _ => rfl

theorem move_like {u : Id} {pic_id : Option String} (hserial : ∀ key, serial.count key ≤ 1)
    (hagree : ∀ p, whereInteger pic_id = some p →
      (.like u p ∈ db.keys ↔ .like u p ∈ serial.keys)) :
    Move db serial (.look_up (.like u pic_id)) db (Job.afterLike db u pic_id)
      ((Phase.look_up (.like u pic_id)).at_once account now serial) := by
  have hstatus : PicturesController.status db ⟨u, account u⟩ pic_id =
      PicturesController.status serial ⟨u, account u⟩ pic_id := by
    rw [Bool.eq_iff_iff, status_iff_keys, status_iff_keys]
    exact exists_congr fun p => and_congr_right fun hp => hagree p hp
  have hdone : Phase.done.Sound db := Phase.sound_of_none rfl (by simp)
  cases hliked : PicturesController.status db ⟨u, account u⟩ pic_id with
  | true =>
    obtain ⟨p, hp, hkey⟩ := status_iff_keys.mp hliked
    obtain ⟨s, rfl, rfl⟩ := Option.map_eq_some_iff.mp hp
    rw [like_at_once_unset (hstatus.symm.trans hliked), afterLike_unset hliked]
    cases hparse : parseInteger s with
    | none => exact .stays rfl hdone fun _ => rfl
    | some p =>
      obtain rfl : to_i s = p := to_i_of_parseInteger hparse
      refine .decides rfl rfl rfl ⟨?_, by simp⟩ ?_
      · intro key howes
        obtain rfl := Option.some.inj howes
        simpa [Phase.adds] using hkey
      · let removed := serial.destroyLikes fun l => l.val.user_id = u && l.val.picture_id = to_i s
        have hcount : ∀ k, removed.count k = if k = .like u (to_i s) then 0 else serial.count k :=
          count_remove_likes (q := fun l => l.val.user_id = u && l.val.picture_id = to_i s)
            rfl rfl rfl fun l _ => by simp [Like.key]
        refine changes_remove hserial ((hagree _ hp).mp hkey) hcount fun l hl hne => ?_
        simpa [Database.destroyLikes, hl, Like.key, imp_iff_not_or] using hne
  | false =>
    rw [like_at_once_set (hstatus.symm.trans hliked), afterLike_set hliked]
    cases hp : assignInteger pic_id with
    | none => exact .stays rfl hdone fun _ => rfl
    | some p =>
      have hwhere := whereInteger_of_assignInteger hp
      have hkey : .like u p ∉ db.keys := fun hkey =>
        Bool.eq_false_iff.mp hliked (status_iff_keys.mpr ⟨p, hwhere, hkey⟩)
      dsimp only
      split_ifs with hfits
      · have howes : (Phase.validate (.like u p)).owes db = some (.like u p) := if_pos hfits
        refine .decides rfl (by simp [Phase.asks, hwhere]) howes (Phase.sound_of_adds rfl ?_)
          (.of_count (changes_add hserial ?_) (fun k => by cases k <;> rfl) rfl)
        · intro key hkey'
          obtain rfl := Option.some.inj (howes.symm.trans hkey')
          simpa [Database.mem_keys] using hkey
        · simpa [Database.mem_keys] using (hagree p hwhere).not.mp hkey
      · have hnone : (Phase.validate (.like u p)).owes db = none := if_neg hfits
        exact .stays hnone (Phase.sound_of_none hnone (by simp)) fun _ => rfl

theorem move_subscribe {u : Id} {cat_id : Option String} (hserial : ∀ key, serial.count key ≤ 1)
    (hagree : ∀ c, whereInteger cat_id = some c →
      (.subscription u c ∈ db.keys ↔ .subscription u c ∈ serial.keys)) :
    Move db serial (.look_up (.subscribe u cat_id)) db (Job.afterSubscribe db u cat_id)
      ((Phase.look_up (.subscribe u cat_id)).at_once account now serial) := by
  have hsub : CategoriesController.current_sub db ⟨u, account u⟩ cat_id =
      CategoriesController.current_sub serial ⟨u, account u⟩ cat_id := by
    rw [Bool.eq_iff_iff, current_sub_iff_keys, current_sub_iff_keys]
    exact exists_congr fun c => and_congr_right fun hc => hagree c hc
  cases hsubscribed : CategoriesController.current_sub db ⟨u, account u⟩ cat_id with
  | true =>
    obtain ⟨c, hc, hkey⟩ := current_sub_iff_keys.mp hsubscribed
    rw [subscribe_at_once_unset (hsub.symm.trans hsubscribed), afterSubscribe_unset hsubscribed hc]
    refine .decides rfl (by simp [Phase.asks, hc]) rfl ⟨?_, by simp⟩ ?_
    · intro key howes
      obtain rfl := Option.some.inj howes
      simpa [Phase.adds] using hkey
    · refine changes_remove hserial ((hagree c hc).mp hkey) ?_ fun l hl _ => hl
      simpa only [hc, Option.some.injEq, eq_comm] using
        @count_remove_subscriptions serial u c
  | false =>
    rw [subscribe_at_once_set (hsub.symm.trans hsubscribed), afterSubscribe_set hsubscribed]
    cases hc : assignInteger cat_id with
    | none => exact .stays rfl (Phase.sound_of_none rfl (by simp)) fun _ => rfl
    | some c =>
      have hwhere := whereInteger_of_assignInteger hc
      have hkey : .subscription u c ∉ db.keys := fun hkey =>
        Bool.eq_false_iff.mp hsubscribed (current_sub_iff_keys.mpr ⟨c, hwhere, hkey⟩)
      dsimp only
      split_ifs with hfits
      · have howes : (Phase.validate (.subscription u c)).owes db = some (.subscription u c) :=
          if_pos hfits
        refine .decides rfl (by simp [Phase.asks, hwhere]) howes (Phase.sound_of_adds rfl ?_)
          (.of_count (changes_add hserial ?_) (fun _ => rfl) rfl)
        · intro key hkey'
          obtain rfl := Option.some.inj (howes.symm.trans hkey')
          simpa [Database.mem_keys] using hkey
        · simpa [Database.mem_keys] using (hagree c hwhere).not.mp hkey
      · have hnone : (Phase.validate (.subscription u c)).owes db = none := if_neg hfits
        exact .stays hnone (Phase.sound_of_none hnone (by simp)) fun _ => rfl

/-- A request that is going to add its key and passes it on. -/
theorem move_passes {phase phase' : Phase} (hsound : phase.Sound db) (hadds : phase.adds = true)
    (hadds' : phase'.adds = true) (howes : phase'.owes db = phase.owes db)
    (hserial : phase.at_once account now serial = serial) :
    Move db serial phase db phase' (phase.at_once account now serial) := by
  refine .stays howes (Phase.sound_of_adds hadds' fun key hkey => ?_) fun _ => by rw [hserial]
  exact hsound.count_eq_zero hadds (howes ▸ hkey)

/-- A request that owes nothing more. -/
theorem move_ends {phase phase' : Phase} (hnone : phase.owes db = none)
    (hnone' : phase'.owes db = none) (hids : ∀ ids, phase' ≠ .delete_likes ids)
    (hserial : phase.at_once account now serial = serial) :
    Move db serial phase db phase' (phase.at_once account now serial) :=
  .stays (hnone'.trans hnone.symm) (Phase.sound_of_none hnone' hids) fun _ => by rw [hserial]

/-- A request that adds its key. -/
theorem move_adds {phase phase' : Phase} {key : NaturalKey} (hunique : ∀ k, db.count k ≤ 1)
    (hsound : phase.Sound db) (hadds : phase.adds = true) (howes : phase.owes db = some key)
    (hnone : phase'.owes (db.add key) = none) (hids : ∀ ids, phase' ≠ .delete_likes ids) :
    Move db serial phase (db.add key) phase' serial :=
  .acts howes hnone (Phase.sound_of_none hnone hids)
    (changes_add hunique (hsound.count_eq_zero hadds howes))

/-- The likes selected for deletion are the one like of the key. -/
theorem move_select_likes {u p : Id} (hunique : ∀ k, db.count k ≤ 1)
    (hsound : (Phase.select_likes u p).Sound db) :
    Move db serial (.select_likes u p) db ((Phase.select_likes u p).issue db).2 serial := by
  have hkey : NaturalKey.like u p ∈ db.keys := (hsound.owes _ rfl).mpr rfl
  rw [Database.mem_keys, Database.count, List.countP_eq_length_filter] at hkey
  have hone := hunique (.like u p)
  rw [Database.count, List.countP_eq_length_filter] at hone
  obtain ⟨l, hfilter⟩ := List.length_eq_one_iff.mp (Nat.le_antisymm hone hkey)
  have hl : l ∈ db.likes.rows ∧ l.val.user_id = u ∧ l.val.picture_id = p := by
    have hmem : l ∈ db.likes.rows.filter fun l => l.val.user_id = u && l.val.picture_id = p := by
      rw [hfilter]
      exact List.mem_singleton_self l
    simpa using hmem
  obtain ⟨hl, rfl, rfl⟩ := hl
  have howes := Phase.owes_delete_likes hl
  simp only [Phase.issue, hfilter, List.map_cons, List.map_nil]
  refine .stays howes ⟨fun key hkey' => ?_, fun ids hids => ?_⟩ fun _ => rfl
  · exact hsound.owes key (howes.symm.trans hkey')
  · obtain rfl := Phase.delete_likes.inj hids
    exact .inr ⟨l, hl, rfl⟩

theorem move_delete_likes {ids : List Id} (hunique : ∀ k, db.count k ≤ 1)
    (hsound : (Phase.delete_likes ids).Sound db) :
    Move db serial (.delete_likes ids) ((Phase.delete_likes ids).issue db).1
      ((Phase.delete_likes ids).issue db).2 serial := by
  rcases hsound.ids ids rfl with rfl | ⟨l, hl, rfl⟩
  · exact .stays rfl (Phase.sound_of_none rfl (by simp [Phase.issue])) fun _ => rfl
  have howes := Phase.owes_delete_likes hl
  have hkey : Like.key l ∈ db.keys := (hsound.owes _ howes).mpr rfl
  refine .acts howes rfl ⟨fun _ h => (by cases h), fun ids hids =>
    .inl (Phase.delete_likes.inj hids).symm⟩ ?_
  refine changes_remove hunique hkey (count_remove_likes rfl rfl rfl fun l' hl' => ?_) ?_
  · -- a key has one row, so the id names the rows of the key
    constructor
    · intro hid
      rw [Table.eq_of_id_eq hl' hl (by simpa using hid), Like.key]
    · intro hkey'
      have hsame : l' = l := eq_of_count_le_one (hunique (Like.key l)) hl' hl
        (by simpa [Like.key] using hkey') (by simp)
      simp [hsame]
  · intro l' hl' hne
    have hid : l'.id ≠ l.id := fun hid => hne (by rw [Table.eq_of_id_eq hl' hl hid])
    simpa [Phase.issue, hl'] using hid

theorem move_delete_subscriptions {u c : Id} (hunique : ∀ k, db.count k ≤ 1)
    (hsound : (Phase.delete_subscriptions u c).Sound db) :
    Move db serial (.delete_subscriptions u c) ((Phase.delete_subscriptions u c).issue db).1
      ((Phase.delete_subscriptions u c).issue db).2 serial :=
  .acts rfl rfl (Phase.sound_of_none rfl (by simp [Phase.issue]))
    (changes_remove hunique ((hsound.owes _ rfl).mpr rfl) count_remove_subscriptions
      fun _ hl _ => hl)

/-- What one statement does, whichever it is. -/
theorem move_issue (phase : Phase) (hunique : ∀ k, db.count k ≤ 1)
    (hserial : ∀ k, serial.count k ≤ 1) (hsound : phase.Sound db)
    (hagree : ∀ key, phase.asks = some key → phase.owes db = none →
      (key ∈ db.keys ↔ key ∈ serial.keys)) :
    Move db serial phase (phase.issue db).1 (phase.issue db).2
      (phase.at_once account now serial) := by
  cases phase with
  | idle => exact move_ends rfl rfl (by simp [Phase.issue]) rfl
  | done => exact move_ends rfl rfl (by simp [Phase.issue]) rfl
  | find_url url job => exact move_find_url hserial (hagree _ rfl rfl)
  | insert_url url job =>
    rw [Phase.issue]
    split_ifs with hstorable
    · exact move_passes hsound rfl rfl (by simp [Phase.owes, hstorable]) rfl
    · exact move_ends (by simp [Phase.owes, hstorable]) rfl (by simp) rfl
  | commit_url url job => exact move_adds hunique hsound rfl rfl rfl (by simp [Phase.issue])
  | look_up job =>
    cases job with
    | like u pic_id =>
      exact move_like hserial fun p hp => hagree _ (by simp [Phase.asks, hp]) rfl
    | subscribe u cat_id =>
      exact move_subscribe hserial fun c hc => hagree _ (by simp [Phase.asks, hc]) rfl
    | view => exact move_ends rfl rfl (by simp [Phase.issue]) rfl
  -- the validation looks again at a key that nobody else has touched
  | validate key =>
    rw [Phase.issue]
    split_ifs with hcount
    · exact move_passes hsound rfl rfl rfl rfl
    · refine move_ends ?_ rfl (by simp) rfl
      rw [Phase.owes, if_neg]
      exact fun hstorable => hcount (hsound.count_eq_zero rfl (if_pos hstorable))
  | insert key =>
    rw [Phase.issue]
    split_ifs with hstorable
    · exact move_passes hsound rfl rfl (by simp [Phase.owes, hstorable]) rfl
    · exact move_ends (by simp [Phase.owes, hstorable]) rfl (by simp) rfl
  | commit key => exact move_adds hunique hsound rfl rfl rfl (by simp [Phase.issue])
  | select_likes u p => exact move_select_likes hunique hsound
  | delete_likes ids => exact move_delete_likes hunique hsound
  | delete_subscriptions u c => exact move_delete_subscriptions hunique hsound

end Moves

/-! ### Runs -/

namespace Twin

variable {account : Id → User} {clock : ℕ → Time} {s t : Twin}

theorem inv_init (h : (twin account clock).init s) : s.Inv := by
  obtain ⟨⟨hunique, hidle⟩, hserial⟩ := h
  have hnone : ∀ i, s.owes i = none := fun i => by
    rw [owes, hidle i]
    rfl
  refine ⟨?_, fun i => ?_, hunique, hserial ▸ hunique⟩
  · rw [hserial]
    exact .idle hnone
  · exact Phase.sound_of_none (hnone i) (by simp [hidle i])

theorem Inv.arrive (h : s.Inv) {i : ℕ} {url : String} {job : Job}
    (hidle : s.requests.phase i = .idle) :
    (s.moved i s.requests.db (.find_url url job) s.serial).Inv :=
  h.move (fun key hasks => by simp [hidle, Phase.asks] at hasks)
    (.stays (by rw [hidle]; rfl) (Phase.sound_of_none rfl (by simp)) fun _ => rfl)

/-- What one statement keeps. -/
theorem Inv.step (h : s.Inv) {a : Statement} (hisolated : Isolated s a)
    (hstep : (twin account clock).step s a = some t) : t.Inv := by
  obtain ⟨requests, hrequests, rfl⟩ := Option.map_eq_some_iff.mp hstep
  cases a with
  | arrive i url job =>
    obtain ⟨hidle, hrequests⟩ := Option.ite_none_right_eq_some.mp hrequests
    rw [← Option.some.inj hrequests]
    exact h.arrive hidle
  | issue i =>
    rw [← Option.some.inj hrequests]
    refine h.move hisolated
      (move_issue _ h.unique h.serial_unique (h.sound i) fun key hasks hnone => ?_)
    refine h.deferred.settled key fun j hj => ?_
    by_cases hji : j = i
    · rw [hji, owes, hnone] at hj
      cases hj
    · exact hisolated key hasks j hji hj

end Twin

/-- However the statements of requests are interleaved, as long as each request looks up
only what no other is about to change, every key that nobody is about to change has the
rows that the actions leave when they are run one at a time. -/
theorem serializable (account : Id → User) (clock : ℕ → Time) (s : Twin)
    (h : (twin account clock).ReachableWithin Isolated s) (key : NaturalKey)
    (hkey : ∀ i, s.owes i ≠ some key) : s.requests.db.count key = s.serial.count key := by
  have hinv : s.Inv := by
    refine System.ReachableWithin.invariant h (fun _ => Twin.inv_init) ?_
    intro s a t hs hisolated hstep
    exact hs.step hisolated hstep
  have hsame := hinv.deferred.settled key hkey
  rw [Database.mem_keys, Database.mem_keys] at hsame
  have hone := hinv.unique key
  have hone' := hinv.serial_unique key
  omega

/-! ### A concrete interleaving -/

/-- A look-up is isolated if the one other request that runs does not owe its key. -/
theorem isolated_of_two {s : Twin} {i j : ℕ}
    (hidle : ∀ k, k ≠ i → k ≠ j → s.requests.phase k = .idle)
    (hother : s.owes j = none ∨ s.owes j ≠ (s.requests.phase i).asks) :
    Isolated s (.issue i) := by
  intro key hasks k hk
  by_cases hkj : k = j
  · subst hkj
    change s.owes k ≠ some key
    rcases hother with hnone | hne
    · simp [hnone]
    · exact hasks ▸ hne
  · simp [hidle k hk hkj, Phase.owes]

/-- A user likes a picture while another page is viewed. -/
theorem serializable_like :
    ∃ s : Twin, s.requests.db.count (.like 1 1) = 1 ∧
      s.requests.db.count (.like 1 1) = s.serial.count (.like 1 1) := by
  refine ⟨_, ?_, serializable (fun _ => .named "ada@example.com") (fun _ => 0) _
    (.step (a := .issue 0) (.step (a := .issue 1) (.step (a := .issue 0) (.step (a := .issue 0)
      (.step (a := .issue 1) (.step (a := .issue 0) (.step (a := .issue 1) (.step (a := .issue 0)
        (.step (a := .issue 1) (.step (a := .issue 0) (.step (a := .issue 0)
          (.step (a := .arrive 1 "/events" .view)
            (.step (a := .arrive 0 "/pictures/like" (.like 1 (some "1")))
              (.init (s := ⟨.sample, Requests.sample.db⟩) ⟨sample_init, rfl⟩) trivial rfl)
            trivial rfl)
          (isolated_of_two (j := 1) ?_ ?_) rfl) (isolated_of_two (j := 1) ?_ ?_) rfl)
        (isolated_of_two (j := 0) ?_ ?_) rfl) (isolated_of_two (j := 1) ?_ ?_) rfl)
        (isolated_of_two (j := 0) ?_ ?_) rfl) (isolated_of_two (j := 1) ?_ ?_) rfl)
      (isolated_of_two (j := 0) ?_ ?_) rfl) (isolated_of_two (j := 1) ?_ ?_) rfl)
      (isolated_of_two (j := 1) ?_ ?_) rfl) (isolated_of_two (j := 0) ?_ ?_) rfl)
      (isolated_of_two (j := 1) ?_ ?_) rfl) _ ?_⟩
  · decide
  all_goals first
    | decide
    | (intro k hk hk'; simp [Requests.sample, hk, hk'])
    | skip
  intro i
  by_cases hi : i = 0
  · subst hi
    decide
  · by_cases hi' : i = 1
    · subst hi'
      decide
    · simp [Twin.owes, Requests.sample, hi, hi', Phase.owes]

end Gallery
