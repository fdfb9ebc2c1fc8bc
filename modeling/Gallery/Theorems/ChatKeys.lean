import Gallery.Pages.ChatKeys

/-!
# The keys agree

All places compute the same key for two users, from numbers and from strings, and
different keys for different pairs. So a message is displayed by the page of its receiver
alone, once if that page lists the sender.

## Main results

* `ChatPage.Shows.length_bound` — the handlers of a page for an event
* `ChatPage.Shows.displays_eq` — how often a page displays a message
* `conversation_keys` — agreement, injectivity and delivery
-/

namespace Gallery

open Text Text.Script

variable {a b u : Exact} {page : ChatPage} {user : Option Exact} {ids : List Exact}
variable {x y : Primitive}

/-! ### Pages -/

namespace ChatPage.Shows

/-- A page has a handler for an event for each user it lists who makes up the pair with the
user of the page. -/
theorem length_bound (h : page.Shows (some u) ids) (a b : Exact) :
    (page.bound ("pri-event".toList ++ conversation a b)).length =
      ids.countP fun i => s(u, i) = s(a, b) := by
  obtain ⟨hsigned, -, hlisted⟩ := h
  have hu : page.current_user_id.Holds u := hsigned u rfl
  rw [bound, ← List.countP_eq_length_filter]
  generalize page.show_private_chat = listed at hlisted
  induction hlisted with
  | nil => rfl
  | @cons v i values ids hv _ ih =>
    have hbind : (KeyPlace.bind.key page.current_user_id v).map ("pri-event".toList ++ ·) =
        some ("pri-event".toList ++ conversation a b) ↔ s(u, i) = s(a, b) := by
      rw [KeyPlace.key_eq .bind hu hv, Option.map_some, Option.some.injEq,
        List.append_cancel_left_eq, conversation_eq_iff]
    rw [List.countP_cons, List.countP_cons, ih]
    simp only [hbind]

/-- A page displays a message of `a` to `b` exactly if it is the page of `b` and lists `a`,
and then once. -/
theorem displays_eq (h : page.Shows user ids) (hids : ids.Nodup) (hy : y.Holds b) :
    page.displays ⟨"pri-event".toList ++ conversation a b, .string y.toString, .number a⟩ =
      if user = some b ∧ a ∈ ids then 1 else 0 := by
  have hreceiver : (Primitive.string y.toString).Holds b := .inr (by rw [hy.toString_eq])
  cases user with
  | none =>
    -- `parseInt('')` is `NaN`
    have hnan : page.current_user_id.parseInt = none := by
      rw [h.signed_out rfl]
      rfl
    simp [displays, sameInt, hnan]
  | some u =>
    have hsame : sameInt page.current_user_id (.string y.toString) = decide (u = b) := by
      rw [sameInt, (h.signed_in u rfl).parseInt_eq, hreceiver.parseInt_eq]
    rw [displays, hsame]
    by_cases hu : u = b
    · subst hu
      have hpair : ∀ i : Exact, s(u, i) = s(a, u) ↔ i = a := by
        intro i
        rw [Sym2.eq_swap, Sym2.congr_left]
      have hone : ids.countP (fun i => s(u, i) = s(a, u)) = if a ∈ ids then 1 else 0 := by
        simp only [hpair]
        exact hids.count
      simp only [eq_self, decide_true, List.countP_true, true_and]
      rw [h.length_bound, hone]
    · simp [hu]

end ChatPage.Shows

/-! ### The keys of a conversation -/

/-- For two users there is one key, which every place computes in the browsers of both and
for no other pair; and an event that `send_message` has named by it is displayed once by a
page of the receiver that lists the sender, and by no other page. -/
theorem conversation_keys (a b : Exact) : ∃ key : List Char,
    (∀ (place : KeyPlace) (x y : Primitive), x.Holds a → y.Holds b →
      place.key x y = some key ∧ place.key y x = some key) ∧
    (∀ c d : Exact, s(c, d) ≠ s(a, b) → ∀ (place : KeyPlace) (x y : Primitive),
      x.Holds c → y.Holds d → ∃ key', place.key x y = some key' ∧ key' ≠ key) ∧
    ∀ x y : Primitive, x.Holds a → y.Holds b → ∃ e, send_message a x y = some e ∧
      e.event_name = "pri-event".toList ++ key ∧
      ∀ (page : ChatPage) (user : Option Exact) (ids : List Exact), page.Shows user ids →
        ids.Nodup → page.displays e = if user = some b ∧ a ∈ ids then 1 else 0 := by
  refine ⟨conversation a b, ?_, ?_, ?_⟩
  · intro place x y hx hy
    have hswap : conversation b a = conversation a b := conversation_eq_iff.mpr Sym2.eq_swap
    exact ⟨place.key_eq hx hy, hswap ▸ place.key_eq hy hx⟩
  · intro c d hne place x y hx hy
    exact ⟨conversation c d, place.key_eq hx hy, fun h => hne (conversation_eq_iff.mp h)⟩
  · intro x y hx hy
    refine ⟨⟨"pri-event".toList ++ conversation a b, .string y.toString, .number a⟩, ?_, rfl, ?_⟩
    · rw [send_message, KeyPlace.key_eq .send_message hx hy]
      rfl
    · intro page user ids hpage hids
      exact hpage.displays_eq hids hy

/-! ### A message -/

/-- User 3 writes to user 12, whose page lists him. -/
theorem conversation_keys_message : ∃ e,
    send_message 3 (.number 3) (.string "12".toList) = some e ∧
      e.event_name = "pri-event3i12".toList ∧
      (ChatPage.mk (.number 12) [.string "7".toList, .string "3".toList]).displays e = 1 := by
  obtain ⟨key, hplaces, -, hmessages⟩ := conversation_keys 3 12
  have hthree : (Primitive.number 3).Holds 3 := .inl rfl
  have htwelve : (Primitive.string "12".toList).Holds 12 := .inr rfl
  have hkey : key = "3i12".toList := by
    have hcomputed : KeyPlace.create_chat.key (.number 3) (.string "12".toList) =
        some "3i12".toList := rfl
    exact Option.some.inj ((hplaces .create_chat _ _ hthree htwelve).1.symm.trans hcomputed)
  obtain ⟨e, he, hname, hdisplays⟩ := hmessages _ _ hthree htwelve
  have hshows : (ChatPage.mk (.number 12) [.string "7".toList, .string "3".toList]).Shows
      (some 12) [7, 3] :=
    { signed_in := fun u hu => .inl (congrArg Primitive.number (Option.some.inj hu))
      signed_out := nofun
      listed := .cons (.inr rfl) (.cons (.inr rfl) .nil) }
  refine ⟨e, he, ?_, hdisplays _ _ _ hshows (by decide)⟩
  rw [hname, hkey]
  rfl

end Gallery
