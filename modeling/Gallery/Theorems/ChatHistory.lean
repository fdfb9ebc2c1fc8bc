import Gallery.Pages.Chat

/-!
# The history of a conversation

The query asks for the messages whose sender is one of two users and whose receiver
is one of them as well. So it also finds what either of them has sent to himself,
and apart from that it finds the conversation.

## Main definitions

* `Message.between` — the conversation of two users
* `Request.message` — the message a send request stores
* `Outgoing` — the requests by which neither of two users writes to himself

## Main results

* `chat_messages_eq_iff` — for which tables the query finds the conversation
* `messages_run` — what a request does to the messages
* `history_exact` — runs of such requests, and the requests that keep it up
-/

namespace Gallery

open Store Rails App Semantics

/-- The messages that one of two users sent to the other. -/
def Message.between (messages : Table Message) (u o : Id) : List (Row Message) :=
  messages.rows.filter fun m =>
    m.val.sender_id = u && m.val.receiver_id = o || m.val.sender_id = o && m.val.receiver_id = u

/-- The message that a request stores: somebody is signed in, the tracking filter lets the
request through, and the record is valid and fits its columns. -/
def Request.message (r : Request) (db : Database) : Option Message :=
  match r.route, r.user db with
  | .messages_create receiver_id (some t) _, some u =>
    (assignInteger receiver_id).bind fun i =>
      if r.trackable db && Message.valid (some u.id) (some i) (some t) && fitsInteger i &&
          fitsString t then some ⟨u.id, i, t⟩
      else none
  | _, _ => none

/-- A message from a user to himself, where he is one of the two. -/
def Message.reflects (u o : Id) (m : Message) : Prop :=
  m.sender_id = m.receiver_id ∧ (m.sender_id = u ∨ m.sender_id = o)

instance (u o : Id) (m : Message) : Decidable (m.reflects u o) :=
  inferInstanceAs (Decidable (_ ∧ (_ ∨ _)))

/-- The request stores no message of one of the two users to himself. -/
def Outgoing (u o : Id) (w : World) (r : Request) : Prop :=
  ∀ m ∈ r.message w.db, ¬ m.reflects u o

instance (u o : Id) (w : World) (r : Request) : Decidable (Outgoing u o w r) :=
  inferInstanceAs (Decidable (∀ m ∈ r.message w.db, ¬ m.reflects u o))

variable {u o : Id} {s : String}

/-! ### The query -/

/-- The query finds the conversation exactly if neither user has written to himself. -/
theorem chat_messages_eq_iff {messages : Table Message} (hne : u ≠ o) :
    Message.chat_messages messages u o = Message.between messages u o ↔
      ∀ m ∈ messages.rows, ¬ m.val.reflects u o := by
  -- each message is asked for by both or by neither, unless it is one to oneself
  have hmessage : ∀ m : Row Message,
      ((m.val.sender_id ∈ [u, o] && m.val.receiver_id ∈ [u, o]) =
        (m.val.sender_id = u && m.val.receiver_id = o ||
          m.val.sender_id = o && m.val.receiver_id = u)) ↔ ¬ m.val.reflects u o := by
    intro m
    rw [Bool.eq_iff_iff]
    simp only [Bool.and_eq_true, Bool.or_eq_true, decide_eq_true_eq, List.mem_cons,
      List.not_mem_nil, or_false, Message.reflects]
    grind
  constructor
  · intro h m hm
    rw [← hmessage, Bool.eq_iff_iff]
    have hmem : m ∈ Message.chat_messages messages u o ↔ m ∈ Message.between messages u o := by
      rw [h]
    simpa only [Message.chat_messages, Message.between, List.mem_filter, hm, true_and] using hmem
  · intro h
    exact List.filter_congr fun m hm => (hmessage m).mpr (h m hm)

/-- What the action answers when the parameter names the opponent. -/
theorem chat_messages_of_parses {db : Database} (hs : parseInteger s = some o) :
    PicturesController.chat_messages db u (some s) =
      .ok (Message.chat_messages db.messages u o) := by
  simp only [PicturesController.chat_messages, Option.map_some, hs]

/-! ### Sending -/

/-- The filters write no message. -/
theorem messages_enter (r : Request) (db : Database) : (r.enter db).messages = db.messages :=
  Request.enter_rule (P := fun db' => db'.messages = db.messages) rfl (fun _ _ _ _ => rfl)
    (fun _ _ => rfl) fun _ _ h => h

/-- Only sending writes messages. -/
theorem messages_outcome {now : Time} {w w' : World} {route : Route} {user : Option (Row User)}
    {res : Except Raised Response} (ho : Outcome now w route user res w')
    (hroute : ∀ receiver_id text event_name,
      route ≠ .messages_create receiver_id text event_name) :
    w'.db.messages = w.db.messages := by
  cases ho with
  | quiet _ _ hdb => rw [hdb]
  | commented _ _ hdb => rw [hdb]; rfl
  | picture_created _ _ _ hdb => rw [hdb]; rfl
  | messaged => exact absurd rfl (hroute _ _ _)
  | like_created | like_destroyed | subscribed | unsubscribed | signed_up | not_signed_up
  | signed_in | not_signed_in | signed_out | facebook_known | facebook_tracked | facebook_stored
  | cancelled | user_destroyed | picture_destroyed | category_destroyed | category_created => rfl

/-- What sending a message does to the table. -/
theorem messages_create (u : Row User) (receiver_id text event_name : Option String) (w : World) :
    (Action.exec (MessagesController.create (some u) receiver_id text event_name) w).2.db.messages =
      match assignInteger receiver_id, text with
      | some i, some t =>
        if Message.valid (some u.id) (some i) (some t) && fitsInteger i && fitsString t then
          w.db.messages.insert ⟨u.id, i, t⟩
        else w.db.messages
      | _, _ => w.db.messages := by
  cases hi : assignInteger receiver_id with
  | none => simp [MessagesController.create, Message.create, hi]
  | some i =>
    cases text with
    | none => simp [MessagesController.create, Message.create, hi]
    | some t =>
      simp only [MessagesController.create, Message.create, hi, Action.exec_bind,
        Action.exec_ite, Action.exec_pure, exec_write, exec_raise, Bool.and_assoc]
      by_cases hvalid : Message.valid (some u.id) (some i) (some t)
      · by_cases hfits : fitsInteger i && fitsString t <;> simp [hvalid, hfits]
      · simp [hvalid]

/-- A request stores its message at the end of the table, or leaves the table alone. -/
theorem messages_run (r : Request) (w : World) :
    (Action.exec r.run w).2.db.messages =
      (r.message w.db).elim w.db.messages w.db.messages.insert := by
  rcases run_cases r w with ⟨htrackable, hrun⟩ | ⟨htrackable, houtcome⟩
  · -- the tracking filter has failed
    have hnone : r.message w.db = none := by
      unfold Request.message
      split
      · simp [htrackable]
      · rfl
    rw [hrun, hnone, Option.elim_none]
  by_cases hroute : ∃ receiver_id text event_name,
      r.route = .messages_create receiver_id text event_name
  · obtain ⟨receiver_id, text, event_name, hroute⟩ := hroute
    rw [exec_run, if_pos htrackable, hroute, Route.run]
    cases hu : r.user w.db with
    | none => simp [MessagesController.create, Request.message, hroute, hu, messages_enter]
    | some u =>
      rw [messages_create]
      cases hi : assignInteger receiver_id with
      | none => cases text <;> simp [Request.message, hroute, hu, hi, messages_enter]
      | some i =>
        cases text with
        | none => simp [Request.message, hroute, hu, messages_enter]
        | some t =>
          simp only [Request.message, hroute, hu, hi, htrackable, messages_enter,
            Option.bind_some, Bool.true_and]
          split_ifs <;> rfl
  · -- the other actions write no message
    have hother := fun receiver_id text event_name h => hroute ⟨receiver_id, text, event_name, h⟩
    have hnone : r.message w.db = none := by
      unfold Request.message
      split
      · next h _ => exact absurd h (hother _ _ _)
      · rfl
    rw [hnone, Option.elim_none, messages_outcome houtcome hother, messages_enter]

/-- Nothing is in the table that one of the two users wrote to himself. -/
def Unreflected (u o : Id) (messages : Table Message) : Prop :=
  ∀ m ∈ messages.rows, ¬ m.val.reflects u o

/-- A request keeps it so exactly if it is one of those. -/
theorem unreflected_run_iff {w : World} {r : Request} (h : Unreflected u o w.db.messages) :
    Unreflected u o (Action.exec r.run w).2.db.messages ↔ Outgoing u o w r := by
  unfold Outgoing
  rw [messages_run]
  cases r.message w.db with
  | none => simpa using h
  | some m =>
    simp only [Option.elim_some, Unreflected, Table.rows_insert, List.forall_mem_append,
      List.forall_mem_singleton, Option.mem_def, Option.some.injEq, forall_eq']
    exact and_iff_right h

/-- Nobody has sent a message yet. -/
def NoMessages (w : World) : Prop := w.db.messages.rows = []

/-- However users send messages, as long as neither of two users sends one to himself, the
history that one of them is given for the other is their conversation; and a next request
keeps it so exactly if it is no such message either. -/
theorem history_exact (hne : u ≠ o) (hs : parseInteger s = some o) (w : World)
    (h : (server NoMessages).ReachableWithin (Outgoing u o) w) :
    PicturesController.chat_messages w.db u (some s) = .ok (Message.between w.db.messages u o) ∧
      ∀ r, PicturesController.chat_messages (Action.exec r.run w).2.db u (some s) =
          .ok (Message.between (Action.exec r.run w).2.db.messages u o) ↔ Outgoing u o w r := by
  have hexact : ∀ db : Database, PicturesController.chat_messages db u (some s) =
      .ok (Message.between db.messages u o) ↔ Unreflected u o db.messages := by
    intro db
    rw [chat_messages_of_parses hs, Except.ok.injEq]
    exact chat_messages_eq_iff hne
  have hunreflected : Unreflected u o w.db.messages := by
    refine System.ReachableWithin.invariant (P := fun w => Unreflected u o w.db.messages) h ?_ ?_
    · intro w hw m hm
      rw [show w.db.messages.rows = [] from hw] at hm
      cases hm
    · intro w r w' hw houtgoing hstep
      obtain rfl := server_step.mp hstep
      exact (unreflected_run_iff hw).mpr houtgoing
  exact ⟨(hexact w.db).mpr hunreflected,
    fun r => (hexact _).trans (unreflected_run_iff hunreflected)⟩

/-! ### Concrete messages -/

theorem noMessages_sample : NoMessages (.ofDatabase .sample) := rfl

/-- Ada writes to Bob. -/
theorem history_exact_hello :
    let w := (World.ofDatabase .sample).after
      [.by 1 (.messages_create (some "2") (some "Hello") none)]
    w.db.messages.rows = [⟨1, 1, 2, "Hello"⟩] ∧
      PicturesController.chat_messages w.db 1 (some "2") =
        .ok (Message.between w.db.messages 1 2) ∧
      ∀ r, PicturesController.chat_messages (Action.exec r.run w).2.db 1 (some "2") =
        .ok (Message.between (Action.exec r.run w).2.db.messages 1 2) ↔ Outgoing 1 2 w r :=
  ⟨by decide, history_exact (by decide) (by decide) _
    (.step (.init noMessages_sample) (by decide) (server_step.mpr rfl))⟩

/-- Ada writes to herself, and Bob's history shows it as part of the conversation. -/
theorem own_note_in_history : ∃ w, (server NoMessages).Reachable w ∧
    PicturesController.chat_messages w.db 2 (some "1") ≠
      .ok (Message.between w.db.messages 2 1) := by
  refine ⟨_, reachable_after noMessages_sample
    [.by 1 (.messages_create (some "1") (some "Note") none)], ?_⟩
  decide

end Gallery
