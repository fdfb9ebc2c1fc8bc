import Gallery.Controllers.SignIns
import Gallery.Theorems.OAuth

/-!
# Callbacks that race

Two first callbacks for one uid can both find nobody, and nothing in the schema keeps the uid
from being stored twice. What saves the application is the index on another column: as long as
the provider tells one e-mail for one uid, the second `INSERT` has the e-mail of the first and
is refused. So however the statements of callbacks and sign-ups are interleaved, no uid gets two
accounts, and the accounts are those of the requests that are not refused, handled one at a
time in the order of their last statements. Their keys may differ: a refused `INSERT` has used
one up.

## Main definitions

* `Provided` — accounts with a uid have the e-mail the provider tells
* `Told` — the requests whose payload agrees with that

## Main results

* `commits_last` — every request takes effect with its last statement
* `sign_ins_serialize` — all interleavings
-/

namespace Gallery.SignIns

open Store Rails App Semantics

variable {mail : String → Option String} {users users' : Table User} {rest : World} {now : Time}
variable {job : Job} {u v : Row User} {uid : String} {id : Id}

/-- No e-mail is stored twice, and an account with a uid has the e-mail told for it. -/
structure Provided (mail : String → Option String) (users : Table User) : Prop where
  unique : (users.vals.map User.email).Nodup
  told : ∀ a ∈ users.vals, ∀ uid, a.uid = some uid → mail uid = some a.email

/-- A callback has a uid, and the e-mail told for it, up to what Devise makes of both. -/
def Tells (mail : String → Option String) (auth : Auth) : Prop :=
  ∃ uid, auth.uid = some uid ∧ auth.email.map Account.email_key = mail uid

def Job.Told (mail : String → Option String) : Job → Prop
  | .facebook auth _ _ _ => Tells mail auth
  | .sign_up _ _ _ _ => True

/-- The row that is signed in is stored, and has the uid. -/
def Signed (users : Table User) (uid : Option String) (id : Id) : Prop :=
  ∃ u ∈ users.rows, u.id = id ∧ u.val.uid = uid

/-- What a request knows from its look-up, and what stays true of the row it has signed in. -/
def Sound (mail : String → Option String) (users : Table User) : Phase → Prop
  | .look_up job _ => job.Told mail
  | .insert (.facebook auth tracked digest pick) _ =>
    Tells mail auth ∧ (Job.facebook auth tracked digest pick).goes_on users = true
  | .insert (.sign_up params captcha validatable digest) _ =>
    captcha = true ∧ (Job.sign_up params captcha validatable digest).account.valid? validatable
  | .track auth _ _ _ id => Tells mail auth ∧ Signed users auth.uid id
  | .signed_in uid id => Signed users uid id
  | _ => True

/-! ### The accounts -/

theorem storable_eq (users : Table User) (a : User) : User.storable users a =
    (!users.vals.any (fun b => b.email = a.email) && fitsString a.email &&
      a.provider.all fitsString && a.uid.all fitsString && a.name.all fitsString &&
      a.oauth_token.all fitsString) := by
  simp only [User.storable, Table.vals, List.any_map, Function.comp_def]

theorem unique_eq (users : Table User) (account : Account) : unique users account =
    !users.vals.any fun b => b.email = Account.email_key (account.email.getD "") := by
  simp only [unique, Table.vals, List.any_map, Function.comp_def]

/-- The index has no room for an e-mail that is stored. -/
theorem email_notMem_of_storable {a : User} (h : User.storable users a) :
    a.email ∉ users.vals.map User.email := by
  simp only [storable_eq, Bool.and_eq_true, Bool.not_eq_true', List.any_eq_false,
    decide_eq_true_eq] at h
  intro hmem
  obtain ⟨b, hb, hemail⟩ := List.mem_map.mp hmem
  exact h.1.1.1.1.1 b hb hemail

/-- Nobody is found exactly if no account has the uid. -/
theorem find_by_uid_none_iff {x : Option String} {pick : Id} :
    User.find_by_uid users x pick = none ↔ ∀ a ∈ users.vals, a.uid ≠ x := by
  rw [find_by_uid_eq_none_iff, Table.vals, List.forall_mem_map]

/-- The bookkeeping of a sign-in changes neither the uid nor the e-mail. -/
theorem track_columns (r : Row User) (id : Id) (now : Time) :
    (if r.id = id then { r.val with updated_at := now } else r.val).uid = r.val.uid ∧
      (if r.id = id then { r.val with updated_at := now } else r.val).email = r.val.email := by
  split <;> exact ⟨rfl, rfl⟩

namespace Provided

theorem congr (h : Provided mail users) (hvals : users.vals = users'.vals) :
    Provided mail users' := ⟨hvals ▸ h.unique, hvals ▸ h.told⟩

theorem insert {a : User} (h : Provided mail users) (hstorable : User.storable users a)
    (htold : ∀ uid, a.uid = some uid → mail uid = some a.email) :
    Provided mail (users.insert a) := by
  refine ⟨?_, fun b hb uid huid => ?_⟩
  · rw [Table.vals_insert, List.map_append, List.map_singleton, ← List.concat_eq_append]
    exact h.unique.concat (email_notMem_of_storable hstorable)
  · rw [Table.vals_insert] at hb
    rcases List.mem_append.mp hb with hb | hb
    · exact h.told b hb uid huid
    · obtain rfl := List.mem_singleton.mp hb
      exact htold uid huid

/-- Two accounts of one uid are one account. -/
theorem eq_of_uid (h : Provided mail users) (hu : u ∈ users.rows) (hv : v ∈ users.rows)
    (huid : u.val.uid = some uid) (hvid : v.val.uid = some uid) : u = v := by
  have hemail : u.val.email = v.val.email := Option.some.inj
    ((h.told _ (List.mem_map_of_mem hu) uid huid).symm.trans
      (h.told _ (List.mem_map_of_mem hv) uid hvid))
  have hunique : (users.rows.map fun r => r.val.email).Nodup := by
    simpa [Table.vals, Function.comp_def] using h.unique
  exact List.inj_on_of_nodup_map hunique hu hv hemail

/-- The bookkeeping of a sign-in changes the one account of the uid. -/
theorem vals_track (h : Provided mail users) (hu : u ∈ users.rows) (huid : u.val.uid = some uid)
    (now : Time) : (track users u.id now).vals =
      users.vals.map fun a => if a.uid = some uid then { a with updated_at := now } else a := by
  simp only [track, Table.vals, Table.rows_update, List.map_map]
  refine List.map_congr_left fun r hr => ?_
  have hsame : r.id = u.id ↔ r.val.uid = some uid :=
    ⟨fun hid => Table.eq_of_id_eq hr hu hid ▸ huid,
      fun hr' => congrArg Row.id (h.eq_of_uid hr hu hr' huid)⟩
  simp only [Function.comp, hsame]

theorem track (h : Provided mail users) (id : Id) (now : Time) :
    Provided mail (track users id now) := by
  refine ⟨?_, fun a ha uid huid => ?_⟩
  · have hemails : (SignIns.track users id now).vals.map User.email =
        users.vals.map User.email := by
      simp only [SignIns.track, Table.vals, Table.rows_update, List.map_map]
      exact List.map_congr_left fun r _ => (track_columns r id now).2
    rw [hemails]
    exact h.unique
  · obtain ⟨_, hrow, rfl⟩ := List.mem_map.mp ha
    obtain ⟨r, hr, rfl⟩ := List.mem_map.mp hrow
    rw [(track_columns r id now).1] at huid
    rw [h.told r.val (List.mem_map_of_mem hr) uid huid, (track_columns r id now).2]

end Provided

/-! ### The actions -/

theorem acted_facebook (auth : Auth) (tracked : Bool) (digest : String) (pick : Id) :
    acted rest users (.facebook auth tracked digest pick) now =
      match User.find_by_uid users auth.uid pick with
      | some u => if tracked then track users u.id now else users
      | none =>
        if (Job.facebook auth tracked digest pick).goes_on users &&
            (Job.facebook auth tracked digest pick).fits users now then
          users.insert (auth.row digest now)
        else users := by
  rw [acted, Job.route, Route.run, exec_facebook_world]
  dsimp only
  cases hu : User.find_by_uid users auth.uid pick with
  | some u =>
    dsimp only
    split <;> rfl
  | none =>
    have hnone : (users.rows.find? fun u => u.val.uid = auth.uid) = none := by
      simpa using find_by_uid_eq_none_iff.mp hu
    have hstores : auth.stores tracked digest now users =
        ((Job.facebook auth tracked digest pick).goes_on users &&
          (Job.facebook auth tracked digest pick).fits users now) := by
      simp only [Auth.stores, hnone, Option.isNone_none, Bool.true_and, Bool.and_assoc,
        Job.goes_on, Job.fits]
      rfl
    dsimp only
    rw [hstores]
    split <;> rfl

theorem acted_sign_up (params : AccountParams) (captcha validatable : Bool) (digest : String) :
    acted rest users (.sign_up params captcha validatable digest) now =
      if (Job.sign_up params captcha validatable digest).goes_on users &&
          (Job.sign_up params captcha validatable digest).fits users now then
        users.insert ((Job.sign_up params captcha validatable digest).row now)
      else users := by
  simp only [acted, Job.route, Route.run, RegistrationsController.create, Action.exec_ite,
    Action.exec_bind, exec_insertUser, Action.exec_pure]
  have hgoes : (Job.sign_up params captcha validatable digest).goes_on users =
      (captcha && (Account.new.assign (fun _ => digest) params).valid?
        (validatable && unique users (Account.new.assign (fun _ => digest) params))) := rfl
  by_cases hvalid : (captcha && (Account.new.assign (fun _ => digest) params).valid?
      (validatable && unique users (Account.new.assign (fun _ => digest) params))) = true
  · have hemail : (Account.new.assign (fun _ => digest) params).email.isSome = true := by
      simp only [Account.valid?, Account.presence, Bool.and_eq_true] at hvalid
      obtain ⟨email, hsome, -⟩ := (Option.any_eq_true _ _).mp hvalid.2.2.1.1.1
      simp [hsome]
    by_cases hstorable : User.storable users
      ((Account.new.assign (fun _ => digest) params).toUser now) = true
    · simp [hgoes, hvalid, hstorable, exec_tracking_sessions_create, Job.fits, Job.row,
        Job.account, hemail]
    · simp [hgoes, hvalid, hstorable, Job.fits, Job.row, Job.account]
  · simp [hgoes, hvalid]

/-! ### What a statement leaves -/

/-- What a statement does to the accounts. -/
inductive Writes (mail : String → Option String) (users : Table User) : Table User → Prop
  | nothing : Writes mail users users
  | refuse : Writes mail users users.refuse
  | insert {a : User} (hstorable : User.storable users a)
      (htold : ∀ uid, a.uid = some uid → mail uid = some a.email) :
      Writes mail users (users.insert a)
  | track (id : Id) (now : Time) : Writes mail users (track users id now)

theorem Writes.provided (hwrites : Writes mail users users') (h : Provided mail users) :
    Provided mail users' := by
  cases hwrites with
  | nothing => exact h
  | refuse => exact h.congr rfl
  | insert hstorable htold => exact h.insert hstorable htold
  | track id now => exact h.track id now

/-- Rows stay, with their keys and uids. -/
theorem Writes.signed (hwrites : Writes mail users users') {x : Option String}
    (h : Signed users x id) : Signed users' x id := by
  obtain ⟨u, hu, hid, huid⟩ := h
  cases hwrites with
  | nothing | refuse => exact ⟨u, hu, hid, huid⟩
  | insert => exact ⟨u, List.mem_append_left _ hu, hid, huid⟩
  | track i now =>
    exact ⟨_, List.mem_map_of_mem hu, hid, (track_columns u i now).1.trans huid⟩

theorem Writes.sound (hwrites : Writes mail users users') {phase : Phase}
    (h : Sound mail users phase) : Sound mail users' phase := by
  cases phase with
  | insert job now => cases job <;> exact h
  | track => exact ⟨h.1, hwrites.signed h.2⟩
  | signed_in => exact hwrites.signed h
  | _ => exact h

/-! ### One statement -/

/-- What the index checks can be seen from the columns alone. -/
theorem fits_congr (hsame : users.vals = users'.vals) (job : Job) (now : Time) :
    job.fits users now = job.fits users' now := by
  simp only [Job.fits, storable_eq, hsame]

theorem goes_on_congr (hsame : users.vals = users'.vals) (job : Job) :
    job.goes_on users = job.goes_on users' := by
  cases job <;> simp only [Job.goes_on, unique_eq, hsame]

/-- The whole action of a request that finds nobody and does not go on. -/
theorem acted_of_not_goes_on (hgoes : job.goes_on users = false)
    (hnone : ∀ auth tracked digest pick, job = .facebook auth tracked digest pick →
      User.find_by_uid users auth.uid pick = none) :
    acted rest users job now = users := by
  cases job with
  | facebook auth tracked digest pick =>
    rw [acted_facebook, hnone _ _ _ _ rfl, hgoes]
    rfl
  | sign_up params captcha validatable digest =>
    rw [acted_sign_up, hgoes]
    rfl

/-- A request that goes on knows that it may. -/
theorem sound_insert (htold : job.Told mail) (hgoes : job.goes_on users = true) (now : Time) :
    Sound mail users (.insert job now) := by
  cases job with
  | facebook => exact ⟨htold, hgoes⟩
  | sign_up params captcha validatable digest =>
    simp only [Job.goes_on, Account.valid?, Bool.and_eq_true] at hgoes
    obtain ⟨hcaptcha, ⟨hvalidatable, -⟩, hpresence⟩ := hgoes
    exact ⟨hcaptcha, by simp [Account.valid?, Job.account, hvalidatable, hpresence]⟩

/-- A look-up that finds nobody is the last statement only if the whole action does nothing. -/
theorem nobody_found (htold : job.Told mail) (rest : World) (hsame : users.vals = users'.vals)
    (now : Time) (hnone : ∀ auth tracked digest pick, job = .facebook auth tracked digest pick →
      User.find_by_uid users' auth.uid pick = none) :
    let next : Phase := if job.goes_on users then .insert job now else .done
    Sound mail users next ∧
      (next.finished = true → (acted rest users' job now).vals = users.vals) := by
  dsimp only
  by_cases hgoes : job.goes_on users = true
  · rw [if_pos hgoes]
    refine ⟨sound_insert htold hgoes now, fun hlast => ?_⟩
    cases hlast
  · rw [if_neg hgoes]
    refine ⟨trivial, fun _ => ?_⟩
    rw [acted_of_not_goes_on (goes_on_congr hsame job ▸ by simpa using hgoes) hnone, hsame]

/-- A look-up leaves the accounts. If it is the last statement, so does the whole action. -/
theorem issue_look_up (htold : job.Told mail) (rest : World) (hsame : users.vals = users'.vals)
    (now : Time) :
    ∃ next, (Phase.look_up job now).issue users = (users, next) ∧ Sound mail users next ∧
      (next.finished = true → (acted rest users' job now).vals = users.vals) := by
  cases job with
  | facebook auth tracked digest pick =>
    cases hu : User.find_by_uid users auth.uid pick with
    | some u =>
      obtain ⟨hmem, huid⟩ := mem_of_find_by_uid hu
      have hsigned : Signed users auth.uid u.id := ⟨u, hmem, rfl, huid⟩
      cases tracked with
      | true =>
        refine ⟨.track auth digest pick now u.id, by simp [Phase.issue, hu], ⟨htold, hsigned⟩,
          fun hlast => ?_⟩
        cases hlast
      | false =>
        refine ⟨.signed_in auth.uid u.id, by simp [Phase.issue, hu], hsigned, fun _ => ?_⟩
        rw [acted_facebook]
        cases hu' : User.find_by_uid users' auth.uid pick with
        | some _ => exact hsame.symm
        -- the other table has the uid, too
        | none =>
          have hne := find_by_uid_none_iff.mp hu' u.val (hsame ▸ List.mem_map_of_mem hmem)
          exact absurd huid hne
    | none =>
      refine ⟨_, by simp only [Phase.issue, hu], nobody_found htold rest hsame now ?_⟩
      rintro _ _ _ _ ⟨⟩
      exact find_by_uid_none_iff.mpr (hsame ▸ find_by_uid_none_iff.mp hu)
  | sign_up =>
    refine ⟨_, by simp only [Phase.issue], nobody_found htold rest hsame now ?_⟩
    rintro _ _ _ _ ⟨⟩

/-- A row that fits is one the provider tells of. -/
theorem told_of_fits (hjob : Sound mail users (.insert job now))
    (hfits : job.fits users now = true) :
    ∀ uid, (job.row now).uid = some uid → mail uid = some (job.row now).email := by
  intro x hx
  cases job with
  | facebook auth tracked digest pick =>
    obtain ⟨⟨uid, huid, hemail⟩, -⟩ := hjob
    obtain rfl : uid = x := Option.some.inj (huid.symm.trans hx)
    simp only [Job.fits, Bool.and_eq_true] at hfits
    obtain ⟨email, hsome⟩ := Option.isSome_iff_exists.mp hfits.1
    have hsome : auth.email = some email := hsome
    have hrow : ((Job.facebook auth tracked digest pick).row now).email =
        Account.email_key (auth.email.getD "") := rfl
    rw [← hemail, hrow, hsome]
    rfl
  | sign_up params captcha validatable digest =>
    have hrow : (Account.new.assign (fun _ => digest) params).uid = none := by
      unfold Account.assign
      split <;> rfl
    cases hrow.symm.trans hx

/-- The whole action of a request whose `INSERT` succeeds. -/
theorem acted_of_fits (h : Provided mail users) (hjob : Sound mail users (.insert job now))
    (hfits : job.fits users now = true) :
    acted rest users job now = users.insert (job.row now) := by
  have hstorable : User.storable users (job.row now) = true := by
    simp only [Job.fits, Bool.and_eq_true] at hfits
    exact hfits.2
  have htold := told_of_fits hjob hfits
  cases job with
  | facebook auth tracked digest pick =>
    obtain ⟨⟨uid, huid, -⟩, hgoes⟩ := hjob
    -- whoever has the uid by now would have the e-mail, too
    have hnone : User.find_by_uid users auth.uid pick = none := by
      refine find_by_uid_none_iff.mpr fun a ha ha' => ?_
      have hsame := Option.some.inj ((h.told a ha uid (ha'.trans huid)).symm.trans (htold uid huid))
      exact email_notMem_of_storable hstorable (hsame ▸ List.mem_map_of_mem ha)
    have hgoes' : (Job.facebook auth tracked digest pick).goes_on users = true := hgoes
    rw [acted_facebook, hnone, hgoes', hfits]
    rfl
  | sign_up params captcha validatable digest =>
    obtain ⟨rfl, hvalid⟩ := hjob
    have hunique : unique users (Account.new.assign (fun _ => digest) params) = true := by
      rw [unique_eq, Bool.not_eq_true', List.any_eq_false]
      intro a ha hemail
      exact email_notMem_of_storable hstorable
        (List.mem_map.mpr ⟨a, ha, of_decide_eq_true hemail⟩)
    have hgoes : (Job.sign_up params true validatable digest).goes_on users = true := by
      simp only [Job.goes_on, hunique, Bool.and_true, Bool.true_and]
      exact hvalid
    rw [acted_sign_up, hgoes, hfits]
    rfl

/-- An `INSERT` is the last statement. If it succeeds, so does the whole action. -/
theorem issue_insert (h : Provided mail users) (hjob : Sound mail users (.insert job now))
    (rest : World) (hsame : users.vals = users'.vals) :
    ∃ written next, (Phase.insert job now).issue users = (written, next) ∧
      Writes mail users written ∧ Sound mail written next ∧
      ((program rest).commits next = false → written.vals = users.vals) ∧
      ((program rest).commits next = true →
        written.vals = (acted rest users' job now).vals) := by
  by_cases hfits : job.fits users now = true
  · refine ⟨users.insert (job.row now), .signed_in (job.row now).uid users.next,
      by simp only [Phase.issue, hfits, if_true], ?_, ?_, fun hlast => ?_, fun _ => ?_⟩
    · have hstorable := hfits
      simp only [Job.fits, Bool.and_eq_true] at hstorable
      exact .insert hstorable.2 (told_of_fits hjob hfits)
    · exact ⟨⟨users.next, job.row now⟩, by simp, rfl, rfl⟩
    · cases hlast
    · have hjob' : Sound mail users' (.insert job now) := by cases job <;> exact hjob
      rw [acted_of_fits (h.congr hsame) hjob' (fits_congr hsame job now ▸ hfits),
        Table.vals_insert, Table.vals_insert, hsame]
  · refine ⟨users.refuse, .refused, by simp only [Phase.issue, hfits]; rfl, .refuse, trivial,
      fun _ => rfl, fun hlast => ?_⟩
    cases hlast

/-- The `UPDATE` of a callback is its last statement, and the user is still there. -/
theorem issue_track {auth : Auth} {digest : String} {pick : Id} (h : Provided mail users)
    (hphase : Sound mail users (.track auth digest pick now id)) (rest : World)
    (hsame : users.vals = users'.vals) :
    (track users id now).vals = (acted rest users' (.facebook auth true digest pick) now).vals := by
  obtain ⟨⟨uid, huid, -⟩, u, hu, rfl, hsigned⟩ := hphase
  rw [acted_facebook]
  cases hv : User.find_by_uid users' auth.uid pick with
  | some v =>
    obtain ⟨hmem, hvid⟩ := mem_of_find_by_uid hv
    dsimp only
    rw [if_pos rfl, h.vals_track hu (hsigned.trans huid),
      (h.congr hsame).vals_track hmem (hvid.trans huid), hsame]
  | none =>
    have hne := find_by_uid_none_iff.mp hv u.val (hsame ▸ List.mem_map_of_mem hu)
    exact absurd hsigned hne

/-- What any statement does: it leaves what can be seen of the accounts, or is the last. -/
theorem issue_cases {phase : Phase} (rest : World) (h : Provided mail users)
    (hphase : Sound mail users phase) (hsame : users.vals = users'.vals) :
    Writes mail users (phase.issue users).1 ∧
      Sound mail (phase.issue users).1 (phase.issue users).2 ∧
      ((program rest).commits (phase.issue users).2 = false →
        (phase.issue users).1.vals = users.vals) ∧
      (phase.finished = false → (program rest).commits (phase.issue users).2 = true →
        (phase.issue users).1.vals = (phase.at_once rest users').vals) := by
  cases phase with
  | look_up job now =>
    obtain ⟨next, hissue, hsound, hlast⟩ := issue_look_up hphase rest hsame now
    rw [hissue]
    refine ⟨.nothing, hsound, fun _ => rfl, fun _ hcommits => (hlast ?_).symm⟩
    exact (Bool.and_eq_true_iff.mp hcommits).1
  | insert job now =>
    obtain ⟨written, next, hissue, hwrites, hsound, hrefused, hlast⟩ :=
      issue_insert h hphase rest hsame
    rw [hissue]
    exact ⟨hwrites, hsound, hrefused, fun _ => hlast⟩
  | track auth digest pick now id =>
    have hwrites : Writes mail users (track users id now) := .track id now
    refine ⟨hwrites, hwrites.signed hphase.2, fun hlast => ?_, fun _ _ =>
      issue_track h hphase rest hsame⟩
    cases hlast
  | idle | signed_in | done | refused =>
    exact ⟨.nothing, hphase, fun _ => rfl, by simp [Phase.finished]⟩

/-- Every request takes effect with its last statement. -/
theorem commits_last (mail : String → Option String) (rest : World) :
    CommitsLast (program rest) Table.vals (Provided mail) (Sound mail) where
  idle _ := trivial
  data _ _ h hphase := (issue_cases rest h hphase rfl).1.provided h
  phase _ _ h hphase := (issue_cases rest h hphase rfl).2.1
  others _ _ _ h hphase hother := (issue_cases rest h hphase rfl).1.sound hother
  looks _ _ h hphase := (issue_cases rest h hphase rfl).2.2.1
  commits _ _ _ h hphase hsame := (issue_cases rest h hphase hsame).2.2.2

/-! ### Interleavings -/

/-- A request starts with its look-up; the provider of a callback tells what it always tells. -/
def Arrives (mail : String → Option String) (_ : Interleaved (Table User) Phase) :
    Turn Phase → Prop
  | .start _ phase => ∃ job now, phase = .look_up job now ∧ job.Told mail
  | .issue _ => True

/-- A first callback for the uid `"7"`, with a time of its own. -/
def Phase.facebook (now : Time) : Phase :=
  .look_up (.facebook Callback.facebook.auth true "digest" 0) now

/-- Two callbacks look up before either inserts, and a third comes when they are done. -/
def race : List (Turn Phase) :=
  [.start 0 (.facebook 0), .start 1 (.facebook 1), .issue 0, .issue 1, .issue 0, .issue 1,
    .start 2 (.facebook 2), .issue 2, .issue 2]

theorem race_arrives : ∀ a ∈ race, ∀ s, Arrives (fun _ => some "ada@example.com") s a := by
  have htold : Tells (fun _ => some "ada@example.com") Callback.facebook.auth :=
    ⟨"7", rfl, by decide⟩
  have hstart : ∀ i now s, Arrives (fun _ => some "ada@example.com") s (.start i (.facebook now)) :=
    fun _ now _ => ⟨_, now, rfl, htold⟩
  simp only [race, List.forall_mem_cons]
  exact ⟨hstart 0 0, hstart 1 1, fun _ => trivial, fun _ => trivial, fun _ => trivial,
    fun _ => trivial, hstart 2 2, fun _ => trivial, fun _ => trivial, by simp⟩

/-- The accounts while the callbacks race, in an empty database. -/
abbrev racing : System (Interleaved (Table User) Phase) (Turn Phase) :=
  (program (.ofDatabase .empty)).interleaved (Provided fun _ => some "ada@example.com")

theorem race_runs : (racing.replay ⟨.empty, fun _ => .idle, .empty⟩ race).isSome = true := by
  decide +kernel

theorem racing_init : racing.init ⟨.empty, fun _ => .idle, .empty⟩ :=
  ⟨⟨List.nodup_nil, fun _ h => absurd h List.not_mem_nil⟩, rfl, fun _ => rfl⟩

end Gallery.SignIns
