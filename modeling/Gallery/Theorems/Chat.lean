import Gallery.Pages.Chat

/-!
# When the chat windows converge

What a window shows, with what is still on its way to it, is the conversation
with what is still on its way from it, as long as the ways do not cross: nobody
sends while something is on its way to the window, and the server stores a
message only once both windows have been given their history. Then, with nothing
in flight, each window shows the conversation.

## Main definitions

* `Chat.conversation` — the messages between the two users
* `Chat.Quiescent`, `Chat.Converged` — nothing in flight, windows that are right
* `Chat.Uncrossed` — the steps, in a given state, whose ways do not cross
* `Chat.Accounts` — the invariant

## Main results

* `accounts_step` — what each step keeps
* `chat_converges` — runs of such steps converge
* `exec_messages_create` — the server's side of a send request
-/

namespace Gallery

open Store Rails App Semantics

/-- The rows a history is still going to add. -/
def History.rows (conversation : List (Row Message)) : History → List (Row Message)
  | .requested => conversation
  | .answered rows => rows
  | .loaded => []

namespace Chat

variable {g : Setting} {s : Chat}

/-- The messages between the two users, in the order in which they were stored. -/
def conversation (g : Setting) (s : Chat) : List (Row Message) :=
  s.messages.rows.filter fun m =>
    m.val.sender_id = g.user .first && m.val.receiver_id = g.user .second ||
      m.val.sender_id = g.user .second && m.val.receiver_id = g.user .first

/-- No request, response or push is in flight. -/
def Quiescent (s : Chat) : Prop :=
  (∀ p, s.sends p = [] ∧ s.pushes p = []) ∧ ∀ p w, s.windows p = some w → w.history = .loaded

/-- With nothing in flight, each open window shows the conversation: every message
once, in the order of storage, and nothing else. -/
def Converged (g : Setting) (s : Chat) : Prop :=
  s.Quiescent → ∀ p w, s.windows p = some w → w.lines = (s.conversation g).map (line g p)

/-- The lines the history of a user's window is still going to add. -/
def pending (g : Setting) (s : Chat) (p : Party) : List Line :=
  match s.windows p with
  | some w => (w.history.rows (s.conversation g)).map (line g p)
  | none => []

/-- The server has answered the history request of an open window. -/
def Served (s : Chat) (p : Party) : Prop := ∃ w, s.windows p = some w ∧ w.history ≠ .requested

/-- The steps whose ways do not cross. A user sends a text the server will store,
with no line on its way to the window and no message on its way from the other
user. The server takes a user's send requests in order, once both windows are
open and have been given their history; it returns the history in the order of
storage, and nothing else. Pushes arrive in order, after the history, and with texts that survive
their encoding. -/
def Uncrossed (g : Setting) (s : Chat) : Step → Prop
  | .openWindow _ => True
  | .send p text =>
    accepts g p text ∧ s.pending g p = [] ∧ s.pushes p = [] ∧ s.sends p.other = []
  | .serveSend p i => i = 0 ∧ s.Served p ∧ s.Served p.other
  | .deliverPush p i =>
    i = 0 ∧ s.pending g p = [] ∧ ∀ text ∈ (s.pushes p).head?, g.to_json text = text
  | .serveHistory p rows => rows.map (line g p) = (s.conversation g).map (line g p)
  | .deliverHistory _ => True

/-- For each open window: its lines, then those its history and the pushes are
going to add, are the conversation and then the messages its user has sent. -/
structure Accounts (g : Setting) (s : Chat) : Prop where
  distinct : g.user .first ≠ g.user .second
  closed : ∀ p, s.windows p = none → s.sends p = [] ∧ s.pushes p = []
  settled : ∀ p, s.sends p ≠ [] → s.pending g p = [] ∧ s.pushes p = []
  oneWay : ∀ p, s.sends p ≠ [] → s.sends p.other = []
  acceptable : ∀ p, ∀ text ∈ s.sends p, accepts g p text
  lines : ∀ p w, s.windows p = some w →
    w.lines ++ s.pending g p ++ (s.pushes p).map (fun text => ⟨false, text⟩) =
      (s.conversation g).map (line g p) ++ (s.sends p).map fun text => ⟨true, text⟩

theorem Accounts.user_ne (h : Accounts g s) (p : Party) : g.user p ≠ g.user p.other := by
  cases p
  · exact h.distinct
  · exact h.distinct.symm

@[simp] theorem pending_some {p : Party} {w : Window} (hw : s.windows p = some w) :
    s.pending g p = (w.history.rows (s.conversation g)).map (line g p) := by
  simp [pending, hw]

/-- What a window's history is going to add depends on the window and the conversation. -/
theorem pending_congr (s t : Chat) {p : Party} (hwindow : t.windows p = s.windows p)
    (hconversation : t.conversation g = s.conversation g) :
    t.pending g p = s.pending g p := by
  simp only [pending, hwindow, hconversation]

/-- Once answered, it no longer depends on the conversation. -/
theorem pending_of_served {s' : Chat} {p : Party} (hserved : s.Served p)
    (hwindow : s'.windows p = s.windows p) : s'.pending g p = s.pending g p := by
  obtain ⟨w, hw, hhistory⟩ := hserved
  rw [pending_some (hwindow.trans hw), pending_some hw]
  rcases hh : w.history with _ | _ | _
  · exact absurd hh hhistory
  · rfl
  · rfl

/-! ### One step after the other -/

theorem accounts_openWindow (h : Accounts g s) (p : Party) : Accounts g (s.openWindow p) := by
  unfold openWindow
  split
  · exact h
  · next hclosed =>
    -- nothing was under way to a closed window
    obtain ⟨hsends, hpushes⟩ := h.closed p hclosed
    have hother : ∀ q, q ≠ p → Function.update s.windows p (some ⟨[], .requested⟩) q =
        s.windows q := fun q hq => Function.update_of_ne hq _ _
    have hpending : ∀ q, q ≠ p → pending g
        { s with windows := Function.update s.windows p (some ⟨[], .requested⟩) } q =
          s.pending g q := fun q hq => pending_congr _ _ (hother q hq) rfl
    refine
      { distinct := h.distinct
        closed := fun q hq => ?_
        settled := fun q hq => ?_
        oneWay := h.oneWay
        acceptable := h.acceptable
        lines := fun q w hw => ?_ }
    · by_cases hqp : q = p
      · simp [hqp] at hq
      · exact h.closed q ((hother q hqp).symm.trans hq)
    · have hqp : q ≠ p := fun hqp => hq (hqp ▸ hsends)
      rw [hpending q hqp]
      exact h.settled q hq
    · by_cases hqp : q = p
      · obtain rfl : ⟨[], .requested⟩ = w := by simpa [hqp] using hw
        subst hqp
        rw [pending_some hw]
        simp [hpushes, hsends, conversation, History.rows]
      · rw [hpending q hqp]
        exact h.lines q w ((hother q hqp).symm.trans hw)

/-- A step that leaves all but the lines and the history of one window alone, and
there only moves lines from the history into the window. -/
theorem Accounts.setWindow (h : Accounts g s) {p : Party} {w w' : Window}
    (hw : s.windows p = some w)
    (hlines : w'.lines ++ (w'.history.rows (s.conversation g)).map (line g p) =
      w.lines ++ (w.history.rows (s.conversation g)).map (line g p))
    (hsettled : (w.history.rows (s.conversation g)).map (line g p) = [] →
      (w'.history.rows (s.conversation g)).map (line g p) = []) :
    Accounts g { s with windows := Function.update s.windows p (some w') } := by
  have hself : Function.update s.windows p (some w') p = some w' := Function.update_self _ _ _
  have hother : ∀ q, q ≠ p → Function.update s.windows p (some w') q = s.windows q :=
    fun q hq => Function.update_of_ne hq _ _
  have hpending' : ∀ q, q ≠ p → pending g
      { s with windows := Function.update s.windows p (some w') } q = s.pending g q :=
    fun q hq => pending_congr _ _ (hother q hq) rfl
  -- the other party sees nothing of it
  refine
    { distinct := h.distinct
      closed := fun q hq => ?_
      settled := fun q hq => ?_
      oneWay := h.oneWay
      acceptable := h.acceptable
      lines := fun q v hv => ?_ }
  · by_cases hqp : q = p
    · simp [hqp] at hq
    · exact h.closed q ((hother q hqp).symm.trans hq)
  · obtain ⟨hpending, hpushes⟩ := h.settled q hq
    refine ⟨?_, hpushes⟩
    by_cases hqp : q = p
    · subst hqp
      rw [pending_some hself]
      exact hsettled (pending_some (g := g) hw ▸ hpending)
    · rw [hpending' q hqp, hpending]
  · by_cases hqp : q = p
    · subst hqp
      obtain rfl := Option.some.inj (hself.symm.trans hv)
      have hbefore := h.lines q w hw
      rw [pending_some hw, ← hlines] at hbefore
      rw [pending_some hv]
      exact hbefore
    · rw [hpending' q hqp]
      exact h.lines q v ((hother q hqp).symm.trans hv)

theorem accounts_serveHistory (h : Accounts g s) {p : Party} {ls : List Line}
    {rows : List (Row Message)} (hw : s.windows p = some ⟨ls, .requested⟩)
    (hrows : rows.map (line g p) = (s.conversation g).map (line g p)) :
    Accounts g { s with windows := Function.update s.windows p (some ⟨ls, .answered rows⟩) } := by
  refine h.setWindow hw ?_ ?_
  · simp [History.rows, hrows]
  · simp only [History.rows, hrows]
    exact id

theorem accounts_deliverHistory (h : Accounts g s) {p : Party} {ls : List Line}
    {rows : List (Row Message)} (hw : s.windows p = some ⟨ls, .answered rows⟩) :
    Accounts g { s with
      windows := Function.update s.windows p (some ⟨ls ++ rows.map (line g p), .loaded⟩) } := by
  refine h.setWindow hw ?_ ?_
  · simp [History.rows]
  · exact fun _ => rfl

theorem accounts_send (h : Accounts g s) {p : Party} {w : Window} {text : String}
    (hw : s.windows p = some w) (huncrossed : Uncrossed g s (.send p text)) :
    Accounts g (s.send p w text) := by
  obtain ⟨haccepts, hpending, hpushes, hback⟩ := huncrossed
  have hself : (s.send p w text).windows p = some { w with lines := w.lines ++ [⟨true, text⟩] } ∧
      (s.send p w text).sends p = s.sends p ++ [text] := by
    simp [send]
  have hother : ∀ q, q ≠ p → (s.send p w text).windows q = s.windows q ∧
      (s.send p w text).sends q = [] ∧ s.sends q = [] := by
    intro q hq
    obtain rfl := Party.eq_other_of_ne hq
    exact ⟨Function.update_of_ne hq _ _, (Function.update_of_ne hq _ _).trans hback, hback⟩
  -- no rows of the history are outstanding, so the new line comes last
  have hpending' : (s.send p w text).pending g p = [] := by
    rw [← hpending, pending_some hself.1, pending_some hw]
    rfl
  refine
    { distinct := h.distinct
      closed := fun q hq => ?_
      settled := fun q hq => ?_
      oneWay := fun q hq => ?_
      acceptable := fun q t ht => ?_
      lines := fun q v hv => ?_ }
  · by_cases hqp : q = p
    · simp [hqp, hself.1] at hq
    · refine ⟨(hother q hqp).2.1, (h.closed q ?_).2⟩
      rw [← (hother q hqp).1, hq]
  · by_cases hqp : q = p
    · subst hqp
      exact ⟨hpending', hpushes⟩
    · exact absurd (hother q hqp).2.1 hq
  · by_cases hqp : q = p
    · exact hqp ▸ (hother p.other (Party.other_ne p)).2.1
    · exact absurd (hother q hqp).2.1 hq
  · by_cases hqp : q = p
    · rw [hqp, hself.2] at ht
      rcases List.mem_append.mp ht with ht | ht
      · exact hqp ▸ h.acceptable p t ht
      · rw [hqp, List.mem_singleton.mp ht]
        exact haccepts
    · simp [(hother q hqp).2.1] at ht
  · by_cases hqp : q = p
    · subst hqp
      obtain rfl := Option.some.inj (hself.1.symm.trans hv)
      have hlines := h.lines q w hw
      rw [hpending, hpushes, List.map_nil, List.append_nil, List.append_nil] at hlines
      rw [hpending', hself.2, List.map_append, ← List.append_assoc]
      change w.lines ++ _ ++ [] ++ (s.pushes q).map _ = (s.conversation g).map _ ++ _ ++ _
      rw [hpushes, ← hlines]
      simp
    · have hlines := h.lines q v ((hother q hqp).1.symm.trans hv)
      rw [(hother q hqp).2.2] at hlines
      rw [pending_congr s (s.send p w text) (hother q hqp).1 rfl, (hother q hqp).2.1]
      exact hlines

/-- The message a send request of `p` stores. -/
def sent (g : Setting) (s : Chat) (p : Party) (text : String) : Row Message :=
  ⟨s.messages.next, ⟨g.user p, g.user p.other, text⟩⟩

theorem conversation_insert (s s' : Chat) {p : Party} {text : String}
    (h : s'.messages = s.messages.insert ⟨g.user p, g.user p.other, text⟩) :
    s'.conversation g = s.conversation g ++ [sent g s p text] := by
  simp only [conversation, h, Table.insert, List.filter_append, sent]
  cases p <;> simp [Party.other]

theorem line_sent (h : Accounts g s) (p : Party) (text : String) :
    line g p (sent g s p text) = ⟨true, text⟩ ∧
      line g p.other (sent g s p text) = ⟨false, text⟩ := by
  simp [line, sent, h.user_ne p]

theorem accounts_serveSend (h : Accounts g s) {p : Party} {text : String}
    (hsends : (s.sends p)[0]? = some text) (hserved : s.Served p)
    (hserved' : s.Served p.other) : Accounts g (s.serveSend g p 0 text) := by
  obtain ⟨rest, hrest⟩ : ∃ rest, s.sends p = text :: rest := by
    cases hs : s.sends p <;> simp_all
  have hne : s.sends p ≠ [] := by simp [hrest]
  have haccepts : accepts g p text := h.acceptable p text (by simp [hrest])
  have hback := h.oneWay p hne
  generalize hs' : s.serveSend g p 0 text = s'
  have hmessages : s'.messages = s.messages.insert ⟨g.user p, g.user p.other, text⟩ := by
    simp [← hs', serveSend, haccepts]
  have hwindows : s'.windows = s.windows := by simp [← hs', serveSend, haccepts]
  have hself : s'.sends p = rest ∧ s'.pushes p = s.pushes p := by
    simp [← hs', serveSend, haccepts, hrest]
  have hother : s'.sends p.other = [] ∧ s'.pushes p.other = s.pushes p.other ++ [text] := by
    simp [← hs', serveSend, haccepts, hback]
  -- the text leaves the sends, and joins the conversation and the other side's pushes
  have hconversation := conversation_insert (g := g) s s' hmessages
  -- both windows are open and have their history, so neither waits for rows
  have hboth : ∀ q, s.Served q := by
    intro q
    by_cases hqp : q = p
    · exact hqp ▸ hserved
    · exact Party.eq_other_of_ne hqp ▸ hserved'
  have hpending : ∀ q, s'.pending g q = s.pending g q := fun q =>
    pending_of_served (hboth q) (congrFun hwindows q)
  refine
    { distinct := h.distinct
      closed := fun q hq => ?_
      settled := fun q hq => ?_
      oneWay := fun q hq => ?_
      acceptable := fun q t ht => ?_
      lines := fun q w hw => ?_ }
  · obtain ⟨w, hw, -⟩ := hboth q
    rw [hwindows, hw] at hq
    exact absurd hq (Option.some_ne_none w)
  · by_cases hqp : q = p
    · subst hqp
      rw [hpending, hself.2]
      exact h.settled q hne
    · exact absurd (Party.eq_other_of_ne hqp ▸ hother.1) hq
  · by_cases hqp : q = p
    · exact hqp ▸ hother.1
    · exact absurd (Party.eq_other_of_ne hqp ▸ hother.1) hq
  · by_cases hqp : q = p
    · subst hqp
      exact h.acceptable q t (by simp [hrest, hself.1 ▸ ht])
    · obtain rfl := Party.eq_other_of_ne hqp
      simp [hother.1] at ht
  · have hlines := h.lines q w (hwindows ▸ hw)
    obtain ⟨hmine, htheirs⟩ := line_sent h p text
    rw [hpending, hconversation, List.map_append, List.map_singleton]
    by_cases hqp : q = p
    · subst hqp
      rw [hself.1, hself.2, hlines, hrest, hmine]
      simp
    · obtain rfl := Party.eq_other_of_ne hqp
      rw [hback] at hlines
      rw [hother.1, hother.2, htheirs, List.map_append, ← List.append_assoc, hlines]
      simp

theorem accounts_deliverPush (h : Accounts g s) {p : Party} {text : String}
    (hpushes : (s.pushes p)[0]? = some text) (hpending : s.pending g p = [])
    (hjson : g.to_json text = text) : Accounts g (s.deliverPush g p 0 text) := by
  obtain ⟨rest, hrest⟩ : ∃ rest, s.pushes p = text :: rest := by
    cases hs : s.pushes p <;> simp_all
  obtain ⟨w, hw⟩ : ∃ w, s.windows p = some w := by
    rcases Option.eq_none_or_eq_some (s.windows p) with hnone | hsome
    · simp [(h.closed p hnone).2] at hrest
    · exact hsome
  -- who is being pushed to has nothing to send
  have hsends : s.sends p = [] := by
    by_contra hne
    simp [(h.settled p hne).2] at hrest
  -- the text goes from the pushes to the lines, and nothing else moves
  generalize hs' : s.deliverPush g p 0 text = s'
  have hself : s'.windows p = some { w with lines := w.lines ++ [⟨false, text⟩] } ∧
      s'.pushes p = rest := by
    simp [← hs', deliverPush, openWindow, hw, hrest, hjson]
  have hother : ∀ q, q ≠ p → s'.windows q = s.windows q ∧ s'.pushes q = s.pushes q := by
    intro q hq
    simp [← hs', deliverPush, openWindow, hw, Function.update_of_ne hq]
  have hmessages : s'.messages = s.messages ∧ s'.sends = s.sends := by
    simp [← hs', deliverPush, openWindow, hw]
  have hconversation : s'.conversation g = s.conversation g := by
    simp only [conversation, hmessages.1]
  have hpending' : s'.pending g p = [] := by
    rw [← hpending, pending_some hself.1, pending_some hw, hconversation]
  refine
    { distinct := h.distinct
      closed := fun q hq => ?_
      settled := fun q hq => ?_
      oneWay := hmessages.2 ▸ h.oneWay
      acceptable := hmessages.2 ▸ h.acceptable
      lines := fun q v hv => ?_ }
  · by_cases hqp : q = p
    · simp [hqp, hself.1] at hq
    · rw [hmessages.2, (hother q hqp).2]
      exact h.closed q ((hother q hqp).1.symm.trans hq)
  · by_cases hqp : q = p
    · exact absurd (by rw [hmessages.2, hqp, hsends]) hq
    · rw [pending_congr s s' (hother q hqp).1 hconversation, (hother q hqp).2]
      exact h.settled q (hmessages.2 ▸ hq)
  · rw [hconversation, hmessages.2]
    by_cases hqp : q = p
    · subst hqp
      obtain rfl := Option.some.inj (hself.1.symm.trans hv)
      have hlines := h.lines q w hw
      rw [hpending, hrest] at hlines
      rw [hpending', hself.2, ← hlines]
      simp
    · rw [pending_congr s s' (hother q hqp).1 hconversation, (hother q hqp).2]
      exact h.lines q v ((hother q hqp).1.symm.trans hv)

/-- What each step keeps. -/
theorem accounts_step {s t : Chat} {a : Step} (h : Accounts g s) (huncrossed : Uncrossed g s a)
    (hstep : (chat g).step s a = some t) : Accounts g t := by
  cases a with
  | openWindow p =>
    obtain rfl := Option.some.inj hstep
    exact accounts_openWindow h p
  | send p text =>
    simp only [chat] at hstep
    split at hstep
    · next w hw =>
      split_ifs at hstep
      · obtain rfl := Option.some.inj hstep
        exact accounts_send h hw huncrossed
      · obtain rfl := Option.some.inj hstep
        exact h
    · cases hstep
  | serveSend p i =>
    obtain ⟨rfl, hserved, hserved'⟩ := huncrossed
    obtain ⟨text, htext, rfl⟩ := Option.map_eq_some_iff.mp hstep
    exact accounts_serveSend h htext hserved hserved'
  | deliverPush p i =>
    obtain ⟨rfl, hpending, hjson⟩ := huncrossed
    obtain ⟨text, htext, rfl⟩ := Option.map_eq_some_iff.mp hstep
    exact accounts_deliverPush h htext hpending (hjson text (by simpa [List.head?_eq_getElem?]))
  | serveHistory p rows =>
    simp only [chat] at hstep
    split at hstep
    · next ls hw =>
      split_ifs at hstep
      obtain rfl := Option.some.inj hstep
      exact accounts_serveHistory h hw huncrossed
    · cases hstep
  | deliverHistory p =>
    simp only [chat] at hstep
    split at hstep
    · next ls rows hw =>
      obtain rfl := Option.some.inj hstep
      exact accounts_deliverHistory h hw
    · cases hstep

/-- Both users have just loaded their pages. -/
theorem accounts_init (h : (chat g).init s) : Accounts g s := by
  obtain ⟨hdistinct, hwindows, hsends, hpushes⟩ := h
  exact
    { distinct := hdistinct
      closed := fun p _ => by simp [hsends, hpushes]
      settled := fun p hp => absurd (congrFun hsends p) hp
      oneWay := fun p hp => absurd (congrFun hsends p) hp
      acceptable := fun p t ht => by simp [hsends] at ht
      lines := fun p w hw => by simp [hwindows] at hw }

/-- With nothing in flight, the accounts leave the conversation in each window. -/
theorem Accounts.converged (h : Accounts g s) : s.Converged g := by
  rintro ⟨hflight, hloaded⟩ p w hw
  have hlines := h.lines p w hw
  rw [(hflight p).1, (hflight p).2, pending_some hw, hloaded p w hw] at hlines
  simpa [History.rows] using hlines

end Chat

/-- In every state of a run whose ways do not cross, the windows are right once
nothing is in flight. -/
theorem chat_converges (g : Chat.Setting) (s : Chat)
    (h : (chat g).ReachableWithin (Chat.Uncrossed g) s) : s.Converged g := by
  have haccounts : Chat.Accounts g s :=
    System.ReachableWithin.invariant (P := Chat.Accounts g) h (fun _ h => Chat.accounts_init h)
      fun _ _ _ h hc hs => Chat.accounts_step h hc hs
  exact haccounts.converged

/-! ### The server's side -/

/-- A send request stores the text and pushes it, or leaves everything as it was. -/
theorem exec_messages_create {g : Chat.Setting} {p : Party} {u : Row User}
    {receiver_id text event_name : String} {w : World} (hu : u.id = g.user p)
    (hreceiver : assignInteger (some receiver_id) = some (g.user p.other))
    (hfits : fitsInteger (g.user p.other)) :
    (Action.exec (MessagesController.create (some u) (some receiver_id) (some text)
        (some event_name)) w).2 =
      if Chat.accepts g p text then
        { w with
          db := { w.db with messages := w.db.messages.insert ⟨g.user p, g.user p.other, text⟩ }
          pushes := w.pushes ++ [⟨"private-channel", event_name,
            .message text (User.toJson u) (some receiver_id)⟩] }
      else w := by
  simp only [MessagesController.create, Message.create, hreceiver, hu, hfits, Bool.true_and,
    Chat.accepts]
  by_cases hvalid : Message.valid (some (g.user p)) (some (g.user p.other)) (some text)
  · by_cases htext : fitsString text <;> simp [hvalid, htext]
  · simp [hvalid]

/-! ### Concrete runs -/

/-- Users 1 and 2, and texts whose encoding changes nothing. -/
def Chat.Setting.sample : Chat.Setting where
  user := fun | .first => 1 | .second => 2
  to_json := id

/-- Nothing has been written yet. -/
def Chat.sample : Chat := ⟨.empty, fun _ => none, fun _ => [], fun _ => []⟩

theorem init_sample : (chat .sample).init .sample := ⟨by decide, rfl, rfl, rfl⟩

/-- Both open their windows, and the first user's text reaches the second. -/
theorem chat_converges_hi : ∃ s : Chat, s.Converged .sample ∧ s.Quiescent ∧
    ∀ p, s.windows p = some ⟨[⟨p = .first, "hi"⟩], .loaded⟩ := by
  refine ⟨_, chat_converges .sample _ (.step (a := .deliverPush .second 0)
    (.step (a := .serveSend .first 0) (.step (a := .send .first "hi")
      (.step (a := .deliverHistory .second) (.step (a := .serveHistory .second [])
        (.step (a := .openWindow .second) (.step (a := .deliverHistory .first)
          (.step (a := .serveHistory .first []) (.step (a := .openWindow .first)
            (.init init_sample) trivial rfl) rfl rfl) trivial rfl) trivial rfl) rfl rfl)
        trivial rfl) ⟨by decide, rfl, rfl, rfl⟩ rfl)
      ⟨rfl, ⟨_, rfl, by decide⟩, ⟨_, rfl, by decide⟩⟩ rfl)
    ⟨rfl, rfl, fun _ _ => rfl⟩ rfl), ⟨?_, ?_⟩, ?_⟩
  · rintro (_ | _) <;> exact ⟨rfl, rfl⟩
  · rintro (_ | _) w hw <;> exact Option.some.inj hw ▸ rfl
  · rintro (_ | _) <;> rfl

/-- The push opens the second user's window, and its history brings the text again. -/
theorem pushed_text_shown_twice :
    ∃ s : Chat, (chat .sample).Reachable s ∧ ¬ s.Converged .sample := by
  refine ⟨_, System.Reachable.replay (.init init_sample) (rfl : (chat .sample).replay .sample
    [.openWindow .first, .serveHistory .first [], .deliverHistory .first, .send .first "hi",
      .serveSend .first 0, .deliverPush .second 0, .serveHistory .second [⟨1, 1, 2, "hi"⟩],
      .deliverHistory .second] = some _), fun h => ?_⟩
  have htwice := h ⟨?_, ?_⟩ .second ⟨[⟨false, "hi"⟩, ⟨false, "hi"⟩], .loaded⟩ rfl
  · exact absurd (congrArg List.length htwice) (by decide)
  · rintro (_ | _) <;> exact ⟨rfl, rfl⟩
  · rintro (_ | _) w hw <;> exact Option.some.inj hw ▸ rfl

end Gallery
