import Gallery.Controllers.TwoRuns
import Gallery.Semantics.Transition

/-!
# What the pushes give away

Two runs of the server side by side. Their requests differ at most in the texts
of chat messages that a user `c` neither sends nor receives, and in the OAuth
columns of other users. What is delivered to `c` is the same as long as `c` holds
no subscription to the channel of all chats, or the two runs store the same
messages by the same users.

## Main definitions

* `Request.alike` — the requests the two runs may handle at the same time
* `twoRuns` — the two runs, with what has been delivered to `c`
* `Confided` — the steps, in a given state, that give nothing away

## Main results

* `inStep_run`, `message_run` — what one request does in both runs
* `delivered_iff` — a step gives nothing away exactly when it is confided
* `delivered_alike` — runs of such steps deliver the same
-/

namespace Gallery

open Store Rails App Semantics

/-- Actions that differ at most in what `c` must not learn: the text of a message
between others, and the OAuth columns of a new user other than `c`. -/
def Route.alike (c : Id) (session : Option Id) (next : Id) : Route → Route → Bool
  | .messages_create receiver_id text event_name, .messages_create receiver_id' text' event_name' =>
    receiver_id = receiver_id' && event_name = event_name' &&
      (text = text' || session ≠ some c && assignInteger receiver_id ≠ some c)
  | .sessions_facebook auth tracked digest pick, .sessions_facebook auth' tracked' digest' pick' =>
    tracked = tracked' && digest = digest' && pick = pick' &&
      (auth = auth' || next ≠ c && auth.alike auth')
  | route, route' => route = route'

/-- Requests that differ at most in what `c` must not learn. -/
def Request.alike (c : Id) (db : Database) (r r' : Request) : Bool :=
  r.session = r'.session && r.url = r'.url && r.now = r'.now &&
    r.route.alike c r.session db.users.next r'.route

/-- What reaches the connections of `c`: a copy of a push for each subscription to
its channel that has been signed for `c`. -/
def deliveries (c : Id) (signed : List (Id × String)) (pushes : List Push) : List Push :=
  pushes.flatMap fun p => List.replicate (signed.count (c, p.channel)) p

/-- A world, and what has been delivered to `c`. -/
structure Observed where
  world : World
  delivered : List Push

/-- One request: `c` gets what it triggers. -/
def Observed.handle (c : Id) (o : Observed) (r : Request) : Observed where
  world := (Action.exec r.run o.world).2
  delivered := o.delivered ++ deliveries c o.world.signed
    ((Action.exec r.run o.world).2.pushes.drop o.world.pushes.length)

/-- Two runs that differ at most in what `c` must not learn. -/
def twoRuns (c : Id) : System (Observed × Observed) (Request × Request) where
  init s := s.1.world.Alike c s.2.world ∧ s.1.delivered = [] ∧ s.2.delivered = []
  step s a :=
    if a.1.alike c s.1.world.db a.2 then some (s.1.handle c a.1, s.2.handle c a.2) else none

/-- The request passes the filters and stores a message. -/
def Request.announces (r : Request) (db : Database) : Bool :=
  match r.route, r.user db with
  | .messages_create receiver_id text _, some _ =>
    r.trackable db && Message.stores receiver_id text
  | _, _ => false

/-- While `c` holds a subscription to the channel of all chats, a message that either
run stores has the same text in both, and its sender has the same columns. -/
def Confided (c : Id) (s : Observed × Observed) (a : Request × Request) : Prop :=
  (c, "private-channel") ∈ s.1.world.signed →
    (a.1.announces s.1.world.db || a.2.announces s.2.world.db) →
      a.1.route = a.2.route ∧ a.1.user s.1.world.db = a.2.user s.2.world.db

variable {c : Id} {w w' : World} {r r' : Request}

theorem Request.announces_eq_false {db : Database}
    (hroute : ∀ receiver_id text event_name,
      r.route ≠ .messages_create receiver_id text event_name) : r.announces db = false := by
  unfold Request.announces
  split
  · next h _ => exact absurd h (hroute _ _ _)
  · rfl

/-! ### One request in both runs -/

theorem Route.alike_cases {session : Option Id} {next : Id} {route route' : Route}
    (h : route.alike c session next route') :
    route' = route ∨
      (∃ auth auth' tracked digest pick, route = .sessions_facebook auth tracked digest pick ∧
        route' = .sessions_facebook auth' tracked digest pick ∧ next ≠ c ∧ auth.alike auth') ∨
      ∃ receiver_id text text' event_name,
        route = .messages_create receiver_id text event_name ∧
        route' = .messages_create receiver_id text' event_name := by
  unfold Route.alike at h
  split at h
  · simp only [Bool.and_eq_true, decide_eq_true_eq] at h
    obtain ⟨⟨rfl, rfl⟩, -⟩ := h
    exact .inr (.inr ⟨_, _, _, _, rfl, rfl⟩)
  · simp only [Bool.and_eq_true, Bool.or_eq_true, decide_eq_true_eq] at h
    obtain ⟨⟨⟨rfl, rfl⟩, rfl⟩, rfl | ⟨hnext, hauth⟩⟩ := h
    · exact .inl rfl
    · exact .inr (.inl ⟨_, _, _, _, _, rfl, rfl, hnext, hauth⟩)
  · exact .inl (of_decide_eq_true h).symm

/-- Both actions send a message, to the same receiver, or neither does. -/
theorem Route.message_cases {session : Option Id} {next : Id} {route route' : Route}
    (h : route.alike c session next route') :
    (∃ receiver_id text text' event_name,
      route = .messages_create receiver_id text event_name ∧
      route' = .messages_create receiver_id text' event_name) ∨
      ∀ receiver_id text event_name, route ≠ .messages_create receiver_id text event_name ∧
        route' ≠ .messages_create receiver_id text event_name := by
  rcases Route.alike_cases h with rfl | ⟨_, _, _, _, _, rfl, rfl, -, -⟩ | hmessage
  · by_cases hroute : ∃ receiver_id text event_name,
        route' = .messages_create receiver_id text event_name
    · obtain ⟨receiver_id, text, event_name, rfl⟩ := hroute
      exact .inl ⟨_, _, _, _, rfl, rfl⟩
    · exact .inr fun receiver_id text event_name =>
        ⟨fun h => hroute ⟨_, _, _, h⟩, fun h => hroute ⟨_, _, _, h⟩⟩
  · exact .inr fun _ _ _ => ⟨nofun, nofun⟩
  · exact .inl hmessage

theorem Request.alike_iff {db : Database} : r.alike c db r' ↔
    r'.session = r.session ∧ r'.url = r.url ∧ r'.now = r.now ∧
      r.route.alike c r.session db.users.next r'.route := by
  simp only [Request.alike, Bool.and_eq_true, decide_eq_true_eq, and_assoc, @eq_comm _ r.session,
    @eq_comm _ r.url, @eq_comm _ r.now]

/-- Such actions have the same filters in front of them. -/
theorem Route.filters_eq {session : Option Id} {next : Id} {route route' : Route}
    (h : route.alike c session next route') :
    route'.tracked = route.tracked ∧ route'.pictures = route.pictures := by
  rcases Route.alike_cases h with rfl | ⟨_, _, _, _, _, rfl, rfl, -, -⟩ | ⟨_, _, _, _, rfl, rfl⟩ <;>
    exact ⟨rfl, rfl⟩

theorem enter_users_next (r : Request) (db : Database) :
    (r.enter db).users.next = db.users.next := by
  unfold Request.enter
  split
  · change (r.tracked db).users.next = _
    rw [r.tracked_users]
  · rw [r.tracked_users]

theorem Auth.alike_refl (auth : Auth) : auth.alike auth := by simp [Auth.alike]

/-- A request that sends no message triggers the same in both runs, which go on alike. -/
theorem inStep_run (hw : w.Alike c w') (hr : r.alike c w.db r')
    (hroute : ∀ receiver_id text event_name,
      r.route ≠ .messages_create receiver_id text event_name) :
    World.InStep c w.pushes w'.pushes (Action.exec r.run w).2 (Action.exec r'.run w').2 := by
  obtain ⟨hsession, hurl, hnow, halike⟩ := Request.alike_iff.mp hr
  obtain ⟨htracked, hpictures⟩ := Route.filters_eq halike
  have hu : Option.Rel (User.Alike c) (r.user w.db) (r'.user w'.db) := by
    unfold Request.user
    exact hsession ▸ alike_current_user hw.db r.session
  rw [exec_run, exec_run, trackable_eq hw.db hsession hurl htracked]
  by_cases htrackable : r.trackable w.db
  · rw [if_pos htrackable, if_pos htrackable, hnow]
    have hin : World.InStep c w.pushes w'.pushes { w with db := r.enter w.db }
        { w' with db := r'.enter w'.db } :=
      ⟨⟨alike_enter hw.db hsession hurl hnow htracked hpictures, hw.signed⟩, [], by simp⟩
    -- the same request in both runs, two callbacks, or two messages
    rcases Route.alike_cases halike with
      hsame | ⟨auth, auth', tracked, digest, pick, hf, hf', hnext, hauth⟩ | ⟨_, _, _, _, hm, -⟩
    · rw [hsame]
      by_cases hsecret : r.route.secret = false
      · exact (coupled_route hsecret hu r.now _ _ hin).2
      · cases hcase : r.route with
        | sessions_facebook auth tracked digest pick =>
          exact inStep_facebook hin auth.alike_refl (.inl rfl) tracked digest pick r.now
        | messages_create _ _ _ => exact absurd hcase (hroute _ _ _)
        | _ => simp [hcase, Route.secret] at hsecret
    · rw [hf, hf']
      refine inStep_facebook hin hauth (.inr ?_) tracked digest pick r.now
      simpa [enter_users_next] using hnext
    · exact absurd hm (hroute _ _ _)
  · rw [if_neg htrackable, if_neg htrackable]
    exact ⟨hw, [], by simp⟩

/-- What a message request pushes. -/
def Request.pushed (r : Request) (db : Database) : List Push :=
  match r.route, r.user db with
  | .messages_create receiver_id text event_name, some u =>
    if r.trackable db && Message.stores receiver_id text then
      [MessagesController.push u receiver_id text event_name]
    else []
  | _, _ => []

/-- A message request writes messages, besides what the filters do. -/
theorem exec_run_message {receiver_id text event_name : Option String}
    (hr : r.route = .messages_create receiver_id text event_name) (w : World) :
    ∃ ms, (Action.exec r.run w).2 =
      { w with
        db := { (if r.trackable w.db then r.enter w.db else w.db) with messages := ms }
        pushes := w.pushes ++ r.pushed w.db } := by
  rw [exec_run]
  by_cases htrackable : r.trackable w.db
  · simp only [htrackable, ite_true, Request.pushed, hr, Route.run]
    cases r.user w.db with
    | none => exact ⟨(r.enter w.db).messages, by simp [MessagesController.create]⟩
    | some u =>
      obtain ⟨ms, hms⟩ := exec_message_world u receiver_id text event_name
        { w with db := r.enter w.db }
      exact ⟨ms, by simpa using hms⟩
  · refine ⟨w.db.messages, ?_⟩
    rcases hu : r.user w.db with _ | u <;> simp [htrackable, Request.pushed, hr, hu]

/-- A message request leaves both runs alike, whatever the texts. -/
theorem message_run {receiver_id text text' event_name : Option String} (hw : w.Alike c w')
    (hr : r.alike c w.db r') (hroute : r.route = .messages_create receiver_id text event_name)
    (hroute' : r'.route = .messages_create receiver_id text' event_name) :
    (Action.exec r.run w).2.Alike c (Action.exec r'.run w').2 := by
  obtain ⟨hsession, hurl, hnow, halike⟩ := Request.alike_iff.mp hr
  obtain ⟨htracked, hpictures⟩ := Route.filters_eq halike
  obtain ⟨ms, hms⟩ := exec_run_message hroute w
  obtain ⟨ms', hms'⟩ := exec_run_message hroute' w'
  have hfilters : (if r.trackable w.db then r.enter w.db else w.db).Alike c
      (if r'.trackable w'.db then r'.enter w'.db else w'.db) := by
    rw [trackable_eq hw.db hsession hurl htracked]
    split
    · exact alike_enter hw.db hsession hurl hnow htracked hpictures
    · exact hw.db
  rw [hms, hms']
  refine ⟨⟨hfilters.users, ?_⟩, hw.signed⟩
  rw [hfilters.rest]

/-! ### What is delivered -/

theorem Message.text_of_stores {receiver_id text : Option String}
    (h : Message.stores receiver_id text) : ∃ t, text = some t := by
  unfold Message.stores at h
  split at h
  · exact ⟨_, rfl⟩
  · cases h

/-- The push of a message tells its text and all columns of its sender. -/
theorem push_eq_iff {u u' : Row User} {receiver_id text text' : Option String}
    (hu : User.Alike c u u') (htext : Message.stores receiver_id text)
    (htext' : Message.stores receiver_id text') (event_name : Option String) :
    MessagesController.push u receiver_id text event_name =
        MessagesController.push u' receiver_id text' event_name ↔ text = text' ∧ u = u' := by
  obtain ⟨t, rfl⟩ := Message.text_of_stores htext
  obtain ⟨t', rfl⟩ := Message.text_of_stores htext'
  constructor
  · intro h
    obtain ⟨ht, hjson, -⟩ := PushData.message.inj (Push.mk.inj h).2.2
    have htoken : u.val.oauth_token = u'.val.oauth_token := congrArg UserJson.oauth_token hjson
    have hexpires : u.val.oauth_expires_at = u'.val.oauth_expires_at :=
      congrArg UserJson.oauth_expires_at hjson
    refine ⟨congrArg some ht, ?_⟩
    rw [hu.rest, ← htoken, ← hexpires]
  · rintro ⟨ht, rfl⟩
    rw [ht]

@[simp] theorem deliveries_nil (c : Id) (signed : List (Id × String)) :
    deliveries c signed [] = [] := rfl

@[simp] theorem push_channel (u : Row User) (receiver_id text event_name : Option String) :
    (MessagesController.push u receiver_id text event_name).channel = "private-channel" := rfl

theorem deliveries_singleton (c : Id) (signed : List (Id × String)) (p : Push) :
    deliveries c signed [p] = List.replicate (signed.count (c, p.channel)) p := by
  simp [deliveries]

theorem deliveries_singleton_eq_nil {signed : List (Id × String)} {p : Push} :
    deliveries c signed [p] = [] ↔ (c, p.channel) ∉ signed := by
  rw [deliveries_singleton, List.replicate_eq_nil_iff, List.count_eq_zero]

/-- Two messages on the channel of all chats reach `c` alike, or `c` is not there. -/
theorem deliveries_push_iff {signed : List (Id × String)} {u u' : Row User}
    {receiver_id text text' : Option String} (hu : User.Alike c u u')
    (htext : Message.stores receiver_id text) (htext' : Message.stores receiver_id text')
    (event_name : Option String) :
    deliveries c signed [MessagesController.push u receiver_id text event_name] =
        deliveries c signed [MessagesController.push u' receiver_id text' event_name] ↔
      ((c, "private-channel") ∈ signed → text = text' ∧ u = u') := by
  rw [deliveries_singleton, deliveries_singleton, ← push_eq_iff hu htext htext' event_name,
    ← not_not (a := (c, "private-channel") ∈ signed), ← List.count_eq_zero, ← or_iff_not_imp_left]
  simp [MessagesController.push, List.replicate_inj]

/-- What both runs deliver of their messages is the same exactly when they are confided. -/
theorem deliveries_pushed_iff {s : Observed × Observed}
    {receiver_id text text' event_name : Option String} (hw : s.1.world.Alike c s.2.world)
    (hr : r.alike c s.1.world.db r')
    (hroute : r.route = .messages_create receiver_id text event_name)
    (hroute' : r'.route = .messages_create receiver_id text' event_name) :
    deliveries c s.1.world.signed (r.pushed s.1.world.db) =
        deliveries c s.2.world.signed (r'.pushed s.2.world.db) ↔ Confided c s (r, r') := by
  obtain ⟨hsession, hurl, hnow, halike⟩ := Request.alike_iff.mp hr
  have htrack := trackable_eq hw.db hsession hurl (Route.filters_eq halike).1
  have hu : Option.Rel (User.Alike c) (r.user s.1.world.db) (r'.user s.2.world.db) := by
    unfold Request.user
    exact hsession ▸ alike_current_user hw.db r.session
  simp only [Confided, Request.announces, Request.pushed, hroute, hroute', htrack, hw.signed]
  generalize r.user s.1.world.db = user at hu
  generalize r'.user s.2.world.db = user' at hu
  cases hu with
  | none => simp
  | @some u u' hu =>
    by_cases htrackable : r.trackable s.1.world.db
    · simp only [htrackable, Bool.true_and]
      -- whether each of the texts is stored, and so pushed, at all
      by_cases htext : Message.stores receiver_id text <;>
        by_cases htext' : Message.stores receiver_id text'
      · simpa [htext, htext'] using deliveries_push_iff hu htext htext' event_name
      · have hne : text ≠ text' := fun h => htext' (h ▸ htext)
        simpa [htext, htext', hne] using deliveries_singleton_eq_nil (c := c)
          (p := MessagesController.push u receiver_id text event_name)
      · have hne : text ≠ text' := fun h => htext (h ▸ htext')
        simpa [htext, htext', hne, @eq_comm _ []] using deliveries_singleton_eq_nil (c := c)
          (p := MessagesController.push u' receiver_id text' event_name)
      · simp [htext, htext']
    · simp [htrackable]

/-- A step delivers the same in both runs exactly when it is confided. -/
theorem delivered_iff {s : Observed × Observed} (hw : s.1.world.Alike c s.2.world)
    (hsame : s.1.delivered = s.2.delivered) (hr : r.alike c s.1.world.db r') :
    (s.1.handle c r).delivered = (s.2.handle c r').delivered ↔ Confided c s (r, r') := by
  obtain ⟨-, -, -, halike⟩ := Request.alike_iff.mp hr
  simp only [Observed.handle, hsame, List.append_cancel_left_eq]
  rcases Route.message_cases halike with ⟨_, _, _, _, hroute, hroute'⟩ | hroute
  · obtain ⟨ms, hms⟩ := exec_run_message hroute s.1.world
    obtain ⟨ms', hms'⟩ := exec_run_message hroute' s.2.world
    rw [hms, hms', List.drop_left, List.drop_left]
    exact deliveries_pushed_iff hw hr hroute hroute'
  · obtain ⟨-, new, hnew, hnew'⟩ := inStep_run hw hr fun _ _ _ => (hroute _ _ _).1
    rw [hnew, hnew', List.drop_left, List.drop_left, hw.signed]
    refine iff_of_true rfl fun _ hannounces => ?_
    rw [Request.announces_eq_false fun _ _ _ => (hroute _ _ _).1,
      Request.announces_eq_false fun _ _ _ => (hroute _ _ _).2] at hannounces
    cases hannounces

theorem twoRuns_step {s : Observed × Observed} {a : Request × Request}
    (h : a.1.alike c s.1.world.db a.2) :
    (twoRuns c).step s a = some (s.1.handle c a.1, s.2.handle c a.2) := if_pos h

/-- The two runs go on alike, whatever a step delivers. -/
theorem handle_alike {s : Observed × Observed} (hw : s.1.world.Alike c s.2.world)
    (hr : r.alike c s.1.world.db r') :
    (s.1.handle c r).world.Alike c (s.2.handle c r').world := by
  obtain ⟨-, -, -, halike⟩ := Request.alike_iff.mp hr
  rcases Route.message_cases halike with ⟨_, _, _, _, hroute, hroute'⟩ | hroute
  · exact message_run hw hr hroute hroute'
  · exact (inStep_run hw hr fun _ _ _ => (hroute _ _ _).1).alike

/-- In every state of two runs whose steps are all confided, the same has been
delivered to `c`. -/
theorem delivered_alike (c : Id) (s : Observed × Observed)
    (h : (twoRuns c).ReachableWithin (Confided c) s) : s.1.delivered = s.2.delivered := by
  suffices hboth : s.1.world.Alike c s.2.world ∧ s.1.delivered = s.2.delivered from hboth.2
  refine System.ReachableWithin.invariant
    (P := fun s => s.1.world.Alike c s.2.world ∧ s.1.delivered = s.2.delivered) h ?_ ?_
  · rintro s ⟨hw, hnone, hnone'⟩
    exact ⟨hw, hnone.trans hnone'.symm⟩
  · rintro s ⟨r, r'⟩ t ⟨hw, hsame⟩ hconfided hstep
    obtain ⟨hr, ht⟩ := Option.ite_none_right_eq_some.mp hstep
    obtain rfl := Option.some.inj ht
    exact ⟨handle_alike hw hr, (delivered_iff hw hsame hr).mpr hconfided⟩

/-! ### Concrete runs -/

/-- Three users and a picture. -/
def Database.trio : Database :=
  { Database.empty with
    users := ((Table.empty.insert (.named "ada@example.com")).insert
      (.named "bob@example.com")).insert (.named "eve@example.com")
    pictures := Table.empty.insert ⟨"Bridge", "bridge.jpg", 0, 0⟩ }

theorem twoRuns_trio : (twoRuns 3).init (⟨.ofDatabase .trio, []⟩, ⟨.ofDatabase .trio, []⟩) :=
  ⟨⟨.refl _, rfl⟩, rfl, rfl⟩

/-- The first user writes to the second; the runs differ in the text. -/
def Request.whisper (text : String) : Request :=
  .by 1 (.messages_create (some "2") (some text) (some "pri-event1i2"))

/-- With a subscription to the channel of the pages alone, the third user gets the comment
that the first writes, and nothing of the message. -/
theorem delivered_alike_unsubscribed :
    ∃ s : Observed × Observed, s.1.world.pushes ≠ s.2.world.pushes ∧ s.1.delivered.length = 1 ∧
      s.1.delivered = s.2.delivered := by
  let auth := Request.by 3 (.pusher_auth "test-channel")
  let comment := Request.by 1 (.comments_create "1" (some "Nice"))
  exact ⟨_, by decide, by decide, delivered_alike 3 _
    (.step (a := (comment, comment))
      (.step (a := (.whisper "yes", .whisper "no"))
        (.step (a := (auth, auth)) (.init twoRuns_trio) (fun h => absurd h (by decide))
          (twoRuns_step (by decide)))
        (fun h => absurd h (by decide)) (twoRuns_step (by decide)))
      (fun h => absurd h (by decide)) (twoRuns_step (by decide)))⟩

/-- With a subscription, which is signed for anybody, the third user reads along. -/
theorem subscriber_reads_along :
    ∃ s : Observed × Observed, (twoRuns 3).Reachable s ∧ s.1.delivered ≠ s.2.delivered := by
  have hauth := (System.Reachable.init twoRuns_trio).step
    (a := (.by 3 (.pusher_auth "private-channel"), .by 3 (.pusher_auth "private-channel")))
    (twoRuns_step (by decide))
  exact ⟨_, hauth.step (a := (.whisper "yes", .whisper "no")) (twoRuns_step (by decide)), by decide⟩

end Gallery
