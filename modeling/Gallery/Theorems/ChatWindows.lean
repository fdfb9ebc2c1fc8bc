import Gallery.Pages.ChatWindows
import Mathlib.Data.List.Perm.Basic

/-!
# Which requests leave other windows alone

A request empties and locks every window that has sent something before, and unlocks it
when it completes. That changes nothing exactly if these windows are locked and empty
already, or unlocked. Along runs of such steps the button of a window shows whether its
own send is in flight.

## Main definitions

* `ChatWindow.Shows` — a button that waits, or is ready
* `ChatWindows.Inv` — the invariant of runs of harmless steps

## Main results

* `ChatWindows.Inv.ajax_alone_iff`, `ChatWindows.Inv.complete_alone_iff` — one request
* `ChatWindows.Inv.step` — a harmless step keeps the invariant
* `windows_alone` — runs of harmless steps, and what a next step does
-/

namespace Gallery

open Semantics

variable {W : Type*} [DecidableEq W]

/-! ### Windows -/

/-- The button waits if a send is in flight, and otherwise is ready. -/
def ChatWindow.Shows (v : ChatWindow) (waiting : Prop) : Prop :=
  (waiting → v.button = "Wait.." ∧ v.disabled = true) ∧
    (¬ waiting → v.button = "Send" ∧ v.disabled = false)

namespace ChatWindow

variable {v : ChatWindow} {waiting : Prop}

theorem wait_shows (h : waiting) : v.wait.Shows waiting :=
  ⟨fun _ => ⟨rfl, rfl⟩, fun hn => absurd h hn⟩

theorem ready_shows (h : ¬ waiting) : v.ready.Shows waiting :=
  ⟨fun hw => absurd hw h, fun _ => ⟨rfl, rfl⟩⟩

/-- The handler of `ajaxSend` changes nothing in a window that waits and is empty. -/
theorem Shows.wait_eq_self_iff (h : v.Shows waiting) : v.wait = v ↔ waiting ∧ v.input = "" := by
  constructor
  · intro heq
    have hdisabled : v.disabled = true := heq ▸ rfl
    refine ⟨by_contra fun hn => ?_, heq ▸ rfl⟩
    rw [(h.2 hn).2] at hdisabled
    cases hdisabled
  · rintro ⟨hw, hinput⟩
    obtain ⟨input, button, disabled⟩ := v
    obtain ⟨rfl, rfl⟩ := h.1 hw
    subst hinput
    rfl

/-- The handler of `ajaxComplete` changes nothing in a window that does not wait. -/
theorem Shows.ready_eq_self_iff (h : v.Shows waiting) : v.ready = v ↔ ¬ waiting := by
  constructor
  · intro heq hw
    have hdisabled : v.disabled = false := heq ▸ rfl
    rw [(h.1 hw).2] at hdisabled
    cases hdisabled
  · intro hn
    obtain ⟨input, button, disabled⟩ := v
    obtain ⟨rfl, rfl⟩ := h.2 hn
    rfl

end ChatWindow

namespace ChatWindows

variable {s : ChatWindows W} {r : AjaxRequest W} {w : W} {i : ℕ}

theorem map_wait_map_wait (v : Option ChatWindow) :
    (v.map ChatWindow.wait).map ChatWindow.wait = v.map ChatWindow.wait := by
  cases v <;> rfl

theorem map_ready_map_ready (v : Option ChatWindow) :
    (v.map ChatWindow.ready).map ChatWindow.ready = v.map ChatWindow.ready := by
  cases v <;> rfl

theorem windows_ajax (s : ChatWindows W) (r : AjaxRequest W) (w : W) :
    (s.ajax r).windows w = if w ∈ s.bound then (s.windows w).map .wait else s.windows w :=
  notify_apply map_wait_map_wait s.bound s.windows w

theorem windows_complete (s : ChatWindows W) (i : ℕ) (w : W) :
    (s.complete i).windows w = if w ∈ s.bound then (s.windows w).map .ready else s.windows w :=
  notify_apply map_ready_map_ready s.bound s.windows w

theorem windows_set_self (s : ChatWindows W) (w : W) (v : ChatWindow) :
    (s.set w v).windows w = some v := Function.update_self ..

theorem windows_set_of_ne {u : W} {v : ChatWindow} (h : u ≠ w) :
    (s.set w v).windows u = s.windows u := Function.update_of_ne h ..

/-! ### The invariant -/

/-- Handlers belong to windows, sends to windows with handlers, each window has at most one
send in flight, and its button shows whether it has. -/
structure Inv (s : ChatWindows W) : Prop where
  opened : ∀ w ∈ s.bound, (s.windows w).isSome
  sent : ∀ w, .send w ∈ s.inflight → w ∈ s.bound
  once : ∀ w, s.inflight.count (.send w) ≤ 1
  button : ∀ w, ∀ v ∈ s.windows w, v.Shows (.send w ∈ s.inflight)

namespace Inv

/-- Handlers change nothing in a window exactly if it has none, or they have nothing to do. -/
theorem windows_ajax_eq_iff (hs : s.Inv) (r : AjaxRequest W) (w : W) :
    (s.ajax r).windows w = s.windows w ↔
      (w ∈ s.bound → .send w ∈ s.inflight ∧ ∀ v ∈ s.windows w, v.input = "") := by
  rw [ajax, notify_apply_eq_iff map_wait_map_wait]
  refine imp_congr_right fun hw => ?_
  obtain ⟨v, hv⟩ := Option.isSome_iff_exists.mp (hs.opened w hw)
  rw [hv, Option.map_some, Option.some.injEq, (hs.button w v hv).wait_eq_self_iff]
  simp

theorem windows_complete_eq_iff (hs : s.Inv) (i : ℕ) (w : W) :
    (s.complete i).windows w = s.windows w ↔ (w ∈ s.bound → .send w ∉ s.inflight) := by
  rw [complete, notify_apply_eq_iff map_ready_map_ready]
  refine imp_congr_right fun hw => ?_
  obtain ⟨v, hv⟩ := Option.isSome_iff_exists.mp (hs.opened w hw)
  rw [hv, Option.map_some, Option.some.injEq, (hs.button w v hv).ready_eq_self_iff]

/-- A request leaves the windows it does not come from alone exactly if they all wait. -/
theorem ajax_alone_iff (hs : s.Inv) (r : AjaxRequest W) :
    (∀ w, r ≠ .send w → (s.ajax r).windows w = s.windows w) ↔ s.AllWait r :=
  forall_congr' fun w => by rw [hs.windows_ajax_eq_iff]; exact imp.swap

/-- The end of a request leaves the windows it does not come from alone exactly if none of
them waits. -/
theorem complete_alone_iff (hs : s.Inv) (i : ℕ) (r : AjaxRequest W) :
    (∀ w, r ≠ .send w → (s.complete i).windows w = s.windows w) ↔ s.NoneWaits r :=
  forall_congr' fun w => by rw [hs.windows_complete_eq_iff]; exact imp.swap

/-- A request that leaves the others alone keeps the invariant. -/
theorem ajax (hs : s.Inv) (hall : s.AllWait r)
    (hr : ∀ w, r = .send w → w ∈ s.bound ∧ .send w ∉ s.inflight) : (s.ajax r).Inv where
  opened w (hw : w ∈ s.bound) := by
    rw [windows_ajax, if_pos hw, Option.isSome_map]
    exact hs.opened w hw
  sent w hw := by
    rcases List.mem_append.mp hw with hw | hw
    · exact hs.sent w hw
    · exact (hr w (List.mem_singleton.mp hw).symm).1
  once w := by
    have hcount : (s.ajax r).inflight.count (.send w) =
        s.inflight.count (.send w) + [r].count (.send w) := List.count_append
    rw [hcount]
    by_cases hw : r = .send w
    · have hnone : s.inflight.count (.send w) = 0 := List.count_eq_zero_of_not_mem (hr w hw).2
      have hlast : [r].count (.send w) = 1 := by rw [hw, List.count_singleton_self]
      omega
    · have hone := hs.once w
      have hlast : [r].count (.send w) = 0 := by
        rw [List.count_singleton, if_neg (by simpa using hw)]
      omega
  button w v hv := by
    have hmem : .send w ∈ (s.ajax r).inflight ↔ .send w ∈ s.inflight ∨ r = .send w := by
      rw [show (s.ajax r).inflight = s.inflight ++ [r] from rfl, List.mem_append,
        List.mem_singleton, eq_comm (a := r)]
    rw [hmem]
    by_cases hw : r = .send w
    · rw [windows_ajax, if_pos (hr w hw).1] at hv
      obtain ⟨v, -, rfl⟩ := Option.map_eq_some_iff.mp hv
      exact ChatWindow.wait_shows (.inr hw)
    · rw [(hs.ajax_alone_iff r).mpr hall w hw] at hv
      simpa [hw] using hs.button w v hv

/-- So does the end of one. -/
theorem complete (hs : s.Inv) (hi : s.inflight[i]? = some r) (hnone : s.NoneWaits r) :
    (s.complete i).Inv where
  opened w (hw : w ∈ s.bound) := by
    rw [windows_complete, if_pos hw, Option.isSome_map]
    exact hs.opened w hw
  sent w hw := hs.sent w (List.mem_of_mem_eraseIdx hw)
  once w := Nat.le_trans ((List.eraseIdx_sublist _ i).count_le _) (hs.once w)
  button w v hv := by
    obtain ⟨hlt, hget⟩ := List.getElem?_eq_some_iff.mp hi
    have hperm : (r :: s.inflight.eraseIdx i).Perm s.inflight := by
      rw [← hget]
      exact List.getElem_cons_eraseIdx_perm hlt
    by_cases hw : r = .send w
    · -- it was the only send of this window
      have hgone : .send w ∉ s.inflight.eraseIdx i := by
        have hone := hs.once w
        rw [← hperm.count_eq, hw, List.count_cons_self] at hone
        exact List.count_eq_zero.mp (by omega)
      have hbound : w ∈ s.bound := hs.sent w (hw ▸ hperm.subset List.mem_cons_self)
      rw [windows_complete, if_pos hbound] at hv
      obtain ⟨v, -, rfl⟩ := Option.map_eq_some_iff.mp hv
      exact ChatWindow.ready_shows hgone
    · have hmem : .send w ∈ (s.complete i).inflight ↔ .send w ∈ s.inflight := by
        rw [← hperm.mem_iff, List.mem_cons, or_iff_right (Ne.symm hw)]
        rfl
      rw [(hs.complete_alone_iff i r).mpr hnone w hw] at hv
      rw [hmem]
      exact hs.button w v hv

theorem set {v : ChatWindow} (hs : s.Inv) (hv : v.Shows (.send w ∈ s.inflight)) :
    (s.set w v).Inv where
  opened u hu := by
    by_cases huw : u = w
    · rw [huw, windows_set_self]
      rfl
    · rw [windows_set_of_ne huw]
      exact hs.opened u hu
  sent := hs.sent
  once := hs.once
  button u x hx := by
    by_cases huw : u = w
    · rw [huw, windows_set_self] at hx
      obtain rfl : v = x := Option.some.inj hx
      rwa [huw]
    · rw [windows_set_of_ne huw] at hx
      exact hs.button u x hx

theorem bind (hs : s.Inv) (hw : (s.windows w).isSome) : (s.bind w).Inv where
  opened u hu := by
    rcases List.mem_append.mp hu with hu | hu
    · exact hs.opened u hu
    · rwa [List.mem_singleton.mp hu]
  sent u hu := List.mem_append_left _ (hs.sent u hu)
  once := hs.once
  button := hs.button

/-- A window that has not been opened has no handlers and no sends. -/
theorem notMem_of_none (hs : s.Inv) (hw : s.windows w = none) :
    w ∉ s.bound ∧ .send w ∉ s.inflight := by
  have hbound : w ∉ s.bound := by
    intro hmem
    have hsome := hs.opened w hmem
    rw [hw] at hsome
    cases hsome
  exact ⟨hbound, fun hmem => hbound (hs.sent w hmem)⟩

theorem set_created (hs : s.Inv) (hw : s.windows w = none) : (s.set w .created).Inv :=
  hs.set ⟨fun hmem => absurd hmem (hs.notMem_of_none hw).2, fun _ => ⟨rfl, rfl⟩⟩

end Inv

/-! ### Steps -/

/-- What a step does. -/
inductive Does (s : ChatWindows W) : WindowStep W → ChatWindows W → Prop
  | shown {w : W} {v : ChatWindow} : s.windows w = some v → Does s (.open_window w) s
  | created {w : W} : s.windows w = none →
      Does s (.open_window w) ((s.set w .created).ajax .other)
  | typed {w : W} {v : ChatWindow} (text : String) : s.windows w = some v →
      Does s (.type w text) (s.set w { v with input := text })
  | empty {w : W} {v : ChatWindow} : s.windows w = some v → ¬ 1 ≤ v.input.length →
      Does s (.send_message w) s
  | sent {w : W} {v : ChatWindow} : s.windows w = some v → v.disabled = false →
      1 ≤ v.input.length → Does s (.send_message w) ((s.bind w).ajax (.send w))
  | started : Does s .ajax (s.ajax .other)
  | completed {i : ℕ} {r : AjaxRequest W} : s.inflight[i]? = some r →
      Does s (.complete i) (s.complete i)

variable {s' : ChatWindows W} {a : WindowStep W}

theorem does_of_step (h : (chatWindows W).step s a = some s') : s.Does a s' := by
  cases a with
  | open_window w =>
    simp only [chatWindows] at h
    split at h
    · next v hv =>
      obtain rfl := Option.some.inj h
      exact .shown hv
    · next hv =>
      obtain rfl := Option.some.inj h
      exact .created hv
  | type w text =>
    obtain ⟨v, hv, rfl⟩ := Option.map_eq_some_iff.mp h
    exact .typed text hv
  | send_message w =>
    simp only [chatWindows] at h
    split at h
    · next v hv =>
      split_ifs at h with hdisabled hlength
      · obtain rfl := Option.some.inj h
        exact .sent hv (Bool.eq_false_iff.mpr hdisabled) hlength
      · obtain rfl := Option.some.inj h
        exact .empty hv hlength
    · cases h
  | ajax =>
    obtain rfl := Option.some.inj h
    exact .started
  | complete i =>
    obtain ⟨r, hr, rfl⟩ := Option.map_eq_some_iff.mp h
    exact .completed hr

/-- A step leaves every window but its own alone exactly if it is harmless. -/
theorem Inv.alone_iff (hs : s.Inv) (h : s.Does a s') :
    (∀ w, a.owner s ≠ some w → s'.windows w = s.windows w) ↔ s.Harmless a := by
  cases h with
  | @shown w v hv =>
    refine iff_of_true (fun _ _ => rfl) fun hnone => ?_
    rw [hv] at hnone
    cases hnone
  | @created w hw =>
    have hset := hs.set_created hw
    constructor
    · intro h _ u hu hr
      have hne : u ≠ w := by
        rintro rfl
        exact (hs.notMem_of_none hw).1 hu
      have hsame := (h u fun heq => hne (Option.some.inj heq).symm).trans
        (windows_set_of_ne (v := .created) hne).symm
      have hwaits := (hset.windows_ajax_eq_iff .other u).mp hsame hu
      rwa [windows_set_of_ne hne] at hwaits
    · intro h u hu
      have hne : u ≠ w := fun heq => hu (congrArg some heq.symm)
      have hsame : ((s.set w .created).ajax .other).windows u = (s.set w .created).windows u := by
        refine (hset.windows_ajax_eq_iff .other u).mpr fun hbound => ?_
        rw [windows_set_of_ne hne]
        exact h hw u hbound nofun
      rw [hsame, windows_set_of_ne hne]
  | @typed w v text hv =>
    refine iff_of_true (fun u hu => windows_set_of_ne ?_) trivial
    rintro rfl
    exact hu rfl
  | @empty w v hv hlength =>
    refine iff_of_true (fun _ _ => rfl) ?_
    rintro ⟨x, hx, hinput⟩
    rw [hv] at hx
    exact absurd (Option.some.inj hx ▸ hinput) hlength
  | @sent w v hv hdisabled hlength =>
    have hbind := hs.bind (w := w) (by rw [hv]; rfl)
    constructor
    · intro h _ u hu hr
      have hsame := h u fun heq => hr (congrArg AjaxRequest.send (Option.some.inj heq))
      exact (hbind.windows_ajax_eq_iff (.send w) u).mp hsame (List.mem_append_left _ hu)
    · intro h u hu
      have hne : u ≠ w := fun heq => hu (congrArg some heq.symm)
      refine (hbind.windows_ajax_eq_iff (.send w) u).mpr fun hbound => ?_
      have hbound : u ∈ s.bound :=
        (List.mem_append.mp hbound).resolve_right fun hlast => hne (List.mem_singleton.mp hlast)
      exact h ⟨v, hv, hlength⟩ u hbound fun heq => hne (AjaxRequest.send.inj heq).symm
  | started =>
    constructor
    · intro h
      exact (hs.ajax_alone_iff .other).mp fun u _ => h u nofun
    · intro h u _
      exact (hs.ajax_alone_iff .other).mpr h u nofun
  | @completed i r hr =>
    have howner : ∀ u, WindowStep.owner s (.complete i) ≠ some u ↔ r ≠ .send u := by
      intro u
      rw [WindowStep.owner, hr]
      cases r <;> simp
    have hharmless : s.Harmless (.complete i) ↔ s.NoneWaits r := by
      rw [Harmless, hr]
      simp
    simp only [howner, hharmless]
    exact hs.complete_alone_iff i r

/-- A harmless step keeps the invariant. -/
theorem Inv.step (hs : s.Inv) (hharmless : s.Harmless a) (h : s.Does a s') : s'.Inv := by
  cases h with
  | shown => exact hs
  | @created w hw =>
    refine (hs.set_created hw).ajax ?_ nofun
    intro u hu hr
    have hne : u ≠ w := by
      rintro rfl
      exact (hs.notMem_of_none hw).1 hu
    rw [windows_set_of_ne hne]
    exact hharmless hw u hu hr
  | @typed w v text hv => exact hs.set (hs.button w v hv)
  | empty => exact hs
  | @sent w v hv hdisabled hlength =>
    refine (hs.bind (by rw [hv]; rfl)).ajax ?_ ?_
    · intro u hu hr
      rcases List.mem_append.mp hu with hu | hu
      · exact hharmless ⟨v, hv, hlength⟩ u hu hr
      · exact absurd (congrArg AjaxRequest.send (List.mem_singleton.mp hu).symm) hr
    · intro u hu
      obtain rfl := AjaxRequest.send.inj hu
      refine ⟨List.mem_append_right _ (List.mem_singleton_self _), fun hmem => ?_⟩
      -- an enabled button has no send in flight
      rw [((hs.button w v hv).1 hmem).2] at hdisabled
      cases hdisabled
  | started => exact hs.ajax hharmless nofun
  | @completed i r hr => exact hs.complete hr (hharmless r hr)

/-- Only typing and sending change what is written in a window. -/
theorem Inv.draft (hs : s.Inv) (hharmless : s.Harmless a) (h : s.Does a s') {v v' : ChatWindow}
    (hv : s.windows w = some v) (hv' : s'.windows w = some v') (hinput : v'.input ≠ v.input) :
    (∃ text, a = .type w text) ∨ a = .send_message w := by
  have howner : a.owner s = some w := by
    by_contra hne
    rw [(hs.alone_iff h).mpr hharmless w hne, hv] at hv'
    exact hinput (Option.some.inj hv' ▸ rfl)
  cases h with
  | shown => exact absurd (Option.some.inj (hv'.symm.trans hv) ▸ rfl) hinput
  | @created u hu =>
    obtain rfl : u = w := Option.some.inj howner
    rw [hu] at hv
    cases hv
  | @typed u x text hx =>
    obtain rfl : u = w := Option.some.inj howner
    exact .inl ⟨text, rfl⟩
  | empty => exact absurd (Option.some.inj (hv'.symm.trans hv) ▸ rfl) hinput
  | @sent u x hx hdisabled hlength =>
    obtain rfl : u = w := Option.some.inj howner
    exact .inr rfl
  | started => cases howner
  | completed =>
    -- the handler leaves the text alone
    rw [windows_complete, hv] at hv'
    split_ifs at hv' <;> exact absurd (Option.some.inj hv' ▸ rfl) hinput

omit [DecidableEq W] in
/-- Before the first send, every step is harmless. -/
theorem harmless_of_unbound (hs : s.bound = []) (a : WindowStep W) : s.Harmless a := by
  have hnone : ∀ w, w ∉ s.bound := fun w hw => by
    rw [hs] at hw
    cases hw
  cases a with
  | open_window w => exact fun _ u hu => absurd hu (hnone u)
  | type w text => trivial
  | send_message w => exact fun _ u hu => absurd hu (hnone u)
  | ajax => exact fun u hu => absurd hu (hnone u)
  | complete i => exact fun _ _ u hu => absurd hu (hnone u)

theorem inv_init (h : (chatWindows W).init s) : s.Inv := by
  obtain ⟨hwindows, hbound, hinflight⟩ := h
  have hnone : ∀ w, .send w ∉ s.inflight := fun w hmem => by cases hinflight _ hmem
  exact
    { opened := by simp [hbound]
      sent := fun w hw => absurd hw (hnone w)
      once := fun w => by rw [List.count_eq_zero_of_not_mem (hnone w)]; exact Nat.zero_le 1
      button := by simp [hwindows] }

end ChatWindows

/-! ### Runs -/

/-- In every run of harmless steps, a window's button waits exactly as long as its own send
is in flight; a next step leaves all windows but its own alone exactly if it is harmless,
and then what is written in a window changes only by typing or by its own send. -/
theorem windows_alone (s : ChatWindows W)
    (h : (chatWindows W).ReachableWithin ChatWindows.Harmless s) :
    (∀ w, ∀ v ∈ s.windows w, v.Shows (.send w ∈ s.inflight)) ∧
      ∀ a s', (chatWindows W).step s a = some s' →
        ((∀ w, a.owner s ≠ some w → s'.windows w = s.windows w) ↔ s.Harmless a) ∧
          (s.Harmless a → ∀ w v v', s.windows w = some v → s'.windows w = some v' →
            v'.input ≠ v.input → (∃ text, a = .type w text) ∨ a = .send_message w) := by
  have hs : s.Inv := by
    refine System.ReachableWithin.invariant (P := ChatWindows.Inv) h
      (fun _ hinit => ChatWindows.inv_init hinit) ?_
    intro s a s' hs hharmless hstep
    exact hs.step hharmless (ChatWindows.does_of_step hstep)
  refine ⟨hs.button, fun a s' hstep => ?_⟩
  have hdoes := ChatWindows.does_of_step hstep
  exact ⟨hs.alone_iff hdoes, fun hharmless w v v' hv hv' hinput =>
    hs.draft hharmless hdoes hv hv' hinput⟩

/-! ### Concrete windows -/

/-- A page without windows. -/
def ChatWindows.start : ChatWindows ℕ := ⟨fun _ => none, [], []⟩

theorem ChatWindows.init_start : (chatWindows ℕ).init .start := ⟨rfl, rfl, by simp [start]⟩

/-- A first message, on its way. -/
theorem windows_alone_first : ∃ s : ChatWindows ℕ,
    s.windows 1 = some ⟨"", "Wait..", true⟩ ∧ s.inflight = [.send 1] ∧
      (∀ w, ∀ v ∈ s.windows w, v.Shows (.send w ∈ s.inflight)) ∧
      ∀ a s', (chatWindows ℕ).step s a = some s' →
        ((∀ w, a.owner s ≠ some w → s'.windows w = s.windows w) ↔ s.Harmless a) ∧
          (s.Harmless a → ∀ w v v', s.windows w = some v → s'.windows w = some v' →
            v'.input ≠ v.input → (∃ text, a = .type w text) ∨ a = .send_message w) := by
  have hinit : (chatWindows ℕ).ReachableWithin ChatWindows.Harmless .start :=
    .init ChatWindows.init_start
  have hopen := hinit.step (ChatWindows.harmless_of_unbound rfl (.open_window 1)) rfl
  have hloaded := hopen.step (ChatWindows.harmless_of_unbound rfl (.complete 0)) rfl
  have htyped := hloaded.step (ChatWindows.harmless_of_unbound rfl (.type 1 "Hi")) rfl
  have hsent := htyped.step (ChatWindows.harmless_of_unbound rfl (.send_message 1)) rfl
  exact ⟨_, rfl, rfl, windows_alone _ hsent⟩

/-- After a first message has been sent, the next one is lost when the reader likes a
picture before sending it. -/
theorem like_clears_draft : ∃ s : ChatWindows ℕ, (chatWindows ℕ).Reachable s ∧
    ∃ s', (chatWindows ℕ).step s .ajax = some s' ∧ WindowStep.owner s .ajax ≠ some 1 ∧
      s.windows 1 = some ⟨"Draft", "Send", false⟩ ∧
      s'.windows 1 = some ⟨"", "Wait..", true⟩ := by
  have hrun : ((chatWindows ℕ).replay .start [.open_window 1, .complete 0, .type 1 "Hi",
      .send_message 1, .complete 0, .type 1 "Draft"]).map
        (fun s => (s.windows 1, (s.ajax .other).windows 1)) =
      some (some ⟨"Draft", "Send", false⟩, some ⟨"", "Wait..", true⟩) := rfl
  obtain ⟨s, hs, hwindows⟩ := Option.map_eq_some_iff.mp hrun
  obtain ⟨hbefore, hafter⟩ := Prod.mk.inj hwindows
  exact ⟨s, (System.Reachable.init ChatWindows.init_start).replay hs, _, rfl, nofun, hbefore,
    hafter⟩

end Gallery
