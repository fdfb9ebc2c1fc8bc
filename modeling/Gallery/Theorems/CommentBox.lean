import Gallery.Pages.CommentBox

/-!
# The browser's box and the server's

A push keeps the box as the server would render it when the script happens to cut
the body where `truncate` does, when its link happens to lead to the picture, and
when the body is no markup. In an empty box the script does not cut and writes a
relative link; in any other box it always cuts and always appends the dots.

## Main definitions

* `ShownWhole`, `ShownCut` — the bodies that each branch of the handler shows like
  the server
* `BoxStep.Faithful` — the steps that keep the box right

## Main results

* `comment_box` — after each delivery of faithful steps the two boxes show the same entries
* `short_comment_gets_dots` — a short comment in a box that has an entry
-/

namespace Gallery

open Store Rails Semantics
open Text (utf16 utf16_append utf16_cons utf16_nil)
open Text.Html

/-! ### Bodies and steps -/

/-- A body of at most 30 characters that is no markup. -/
def ShownWhole (refs : Text.Html.References) (body : String) : Prop :=
  body.length ≤ 30 ∧ Unmarked refs (utf16 body.toList)

/-- A body whose first 27 code units are no markup, and which is cut behind them. -/
def ShownCut (refs : Text.Html.References) (body : String) : Prop :=
  Unmarked refs ((utf16 body.toList).take 27) ∧ Cut body

/-- What is pushed to an empty box is shown whole, on a page below `/pictures/`; what
is pushed to any other box is cut. No later comment has been stored when a push arrives. -/
def BoxStep.Faithful (refs : Text.Html.References) (page : List Char) (s : BoxState) :
    BoxStep → Prop
  | create _ => True
  | deliver => ∀ comment ∈ s.pending.head?, s.pending.tail = [] ∧
      if s.box = [] then directory page = "/pictures/".toList ∧ ShownWhole refs comment.body
      else ShownCut refs comment.body

variable {refs : Text.Html.References} {esc : Escaper refs} {page : List Char} {body : String}

/-! ### The server's box after one more comment -/

/-- Sorting puts an element in front that no other may precede. -/
theorem insertionSort_concat {α : Type} {r : α → α → Prop} [DecidableRel r] {x : α}
    {xs : List α} (h : ∀ a ∈ xs, ¬ r a x) :
    (xs ++ [x]).insertionSort r = x :: xs.insertionSort r := by
  induction xs with
  | nil => rfl
  | cons a xs ih =>
    rw [List.forall_mem_cons] at h
    rw [List.cons_append, List.insertionSort_cons, ih h.2, List.orderedInsert, if_neg h.1,
      List.insertionSort_cons]

/-- The newest comment pushes the fifth one out. -/
theorem last_comments_insert (t : Table Comment) (c : Comment) :
    Comment.last_comments (t.insert c) = (⟨t.next, c⟩ :: Comment.last_comments t).take 5 := by
  have hnewest : ∀ a ∈ t.rows, ¬ t.next ≤ a.id := by
    intro a ha
    have hbound := t.bounds a ha
    omega
  unfold Comment.last_comments
  rw [Table.rows_insert, insertionSort_concat hnewest, List.take_succ_cons, List.take_succ_cons,
    List.take_take]
  rfl

/-- The entry the server renders for a comment. -/
def serverEntry (esc : Escaper refs) (c : Comment) : BoxEntry :=
  LastComment.entry esc ⟨truncate c.body 30, c.picture_id⟩

theorem serverBox_insert (t : Table Comment) (c : Comment) :
    serverBox esc (t.insert c) = (serverEntry esc c :: serverBox esc t).take 5 := by
  unfold serverBox
  rw [last_comments_insert, List.map_take]
  rfl

theorem length_serverBox (t : Table Comment) : (serverBox esc t).length ≤ 5 := by
  simp [serverBox, Comment.last_comments]

/-! ### The browser's box after one more push -/

/-- The entry the handler makes of a comment. -/
def pushedEntry (page : List Char) (c : Comment) (box : List BoxEntry) : BoxEntry :=
  if box.isEmpty then
    ⟨resolve page (" ".toList ++ idDigits c.picture_id ++ " ".toList), utf16 c.body.toList⟩
  else ⟨resolve page ("/pictures/".toList ++ idDigits c.picture_id ++ " ".toList),
    (utf16 c.body.toList).take 27 ++ ascii "..."⟩

theorem testEvent_eq {box : List BoxEntry} (c : Comment) (h : box.length ≤ 5) :
    testEvent page c box = (pushedEntry page c box :: box).take 5 := by
  cases box with
  | nil => rfl
  | cons e box =>
    simp only [testEvent, pushedEntry, List.isEmpty_cons, Bool.false_eq_true, if_false]
    split_ifs with hfull
    · rw [List.dropLast_eq_take]
      congr 1
      simp only [List.length_cons] at h hfull ⊢
      omega
    · exact (List.take_of_length_le (by omega)).symm

/-! ### Links -/

theorem trimUrl_space_cons (cs : List Char) : trimUrl (' ' :: cs) = trimUrl cs := by
  simp [trimUrl]

/-- Behind a path without spaces, the handler's space is trimmed. -/
theorem trimUrl_concat_space {cs : List Char} (h : ' ' ∉ cs) : trimUrl (cs ++ [' ']) = cs := by
  have hself : ∀ ds : List Char, ' ' ∉ ds → ds.dropWhile (· = ' ') = ds := by
    intro ds hds
    cases ds with
    | nil => rfl
    | cons d ds =>
      have hd : d ≠ ' ' := fun hd => hds (hd ▸ List.mem_cons_self)
      simp [hd]
  cases cs with
  | nil => rfl
  | cons c cs =>
    have hc : c ≠ ' ' := fun hc => h (hc ▸ List.mem_cons_self)
    have hreverse := hself (c :: cs).reverse (by rwa [List.mem_reverse])
    simp only [trimUrl, List.cons_append, List.dropWhile_cons, hc, decide_false, Bool.false_eq_true,
      if_false]
    rw [← List.cons_append, List.reverse_append, List.reverse_singleton, List.singleton_append,
      List.dropWhile_cons, if_pos (by simp), hreverse, List.reverse_reverse]

theorem notMem_idDigits {c : Char} (hc : c.isDigit = false) (id : Id) : c ∉ idDigits id := by
  intro hmem
  have hdigit : c.isDigit := Nat.isDigit_of_mem_toDigits (by decide) (by decide) hmem
  rw [hc] at hdigit
  cases hdigit

/-- The absolute link leads to the picture from every page. -/
theorem resolve_absolute (page : List Char) (id : Id) :
    resolve page ("/pictures/".toList ++ idDigits id ++ " ".toList) = picture_path id := by
  have hspace : ' ' ∉ "/pictures/".toList ++ idDigits id := by
    rw [List.mem_append, not_or]
    exact ⟨by decide, notMem_idDigits (by decide) id⟩
  have htrim := trimUrl_concat_space hspace
  unfold resolve
  rw [show " ".toList = [' '] by decide, htrim]
  exact if_pos rfl

/-- The relative one does so from a page below `/pictures/`. -/
theorem resolve_relative (hpage : directory page = "/pictures/".toList) (id : Id) :
    resolve page (" ".toList ++ idDigits id ++ " ".toList) = picture_path id := by
  have htrim : trimUrl (" ".toList ++ idDigits id ++ " ".toList) = idDigits id := by
    rw [show " ".toList = [' '] by decide, List.append_assoc, List.singleton_append,
      trimUrl_space_cons, trimUrl_concat_space (notMem_idDigits (by decide) id)]
  have hrelative : (idDigits id).head? ≠ some '/' := by
    intro hhead
    exact notMem_idDigits (by decide) id (List.mem_of_mem_head? hhead)
  unfold resolve
  rw [htrim, if_neg hrelative, hpage]
  rfl

/-! ### Texts -/

/-- The handler and the server make the same of a comment. -/
theorem sameEntry_pushed {c : Comment} {box : List BoxEntry}
    (h : if box = [] then directory page = "/pictures/".toList ∧ ShownWhole refs c.body
      else ShownCut refs c.body) :
    SameEntry refs (pushedEntry page c box) (serverEntry esc c) := by
  -- the two branches of the handler
  cases box with
  | nil =>
    rw [if_pos rfl] at h
    obtain ⟨hpage, hshort, hunmarked⟩ := h
    refine ⟨resolve_relative hpage c.picture_id, ?_⟩
    have htruncate : truncate c.body 30 = c.body := if_neg (by omega)
    simp only [serverEntry, LastComment.entry, htruncate]
    exact (esc.tokens_escaped hunmarked (show Boundary 0x3c by decide)).symm
  | cons e box =>
    rw [if_neg (List.cons_ne_nil e box)] at h
    refine ⟨resolve_absolute page c.picture_id, ?_⟩
    have hdots : esc.escaped (ascii "...") = ascii "..." := by
      have hdot := esc.plain 0x2e (by decide)
      have hascii : ascii "..." = [0x2e, 0x2e, 0x2e] := by decide
      simp [hascii, Escaper.escaped, hdot]
    have hescaped : esc.escaped ((utf16 c.body.toList).take 27 ++ ascii "...") =
        esc.escaped ((utf16 c.body.toList).take 27) ++ ascii "..." := by
      rw [Escaper.escaped, List.flatMap_append]
      exact congrArg _ hdots
    have htokens : ∀ rest,
        tokens refs (esc.escaped ((utf16 c.body.toList).take 27) ++ 0x2e :: rest) =
          tokens refs ((utf16 c.body.toList).take 27 ++ 0x2e :: rest) :=
      fun rest => esc.tokens_escaped h.1 (by decide)
    simp only [serverEntry, LastComment.entry, ← cut_iff.mpr h.2, hescaped, List.append_assoc]
    rw [pushedEntry, if_neg (by simp), List.append_assoc]
    exact (htokens _).symm

/-! ### Runs -/

/-- Within faithful steps the box shows what the server would render for the comments
that have arrived. -/
theorem box_of_arrived {s : BoxState}
    (h : (commentBox esc page).ReachableWithin (fun s a => a.Faithful refs page s) s) :
    List.Forall₂ (SameEntry refs) s.box (serverBox esc s.arrived) := by
  refine System.ReachableWithin.invariant
    (P := fun s => List.Forall₂ (SameEntry refs) s.box (serverBox esc s.arrived)) h ?_ ?_
  · intro s hinit
    rw [hinit.2]
    exact List.forall₂_same.mpr fun e _ => ⟨rfl, rfl⟩
  · intro s a t hs hfaithful hstep
    cases a with
    | create c =>
      obtain ⟨-, hstep⟩ := Option.ite_none_right_eq_some.mp hstep
      obtain rfl := Option.some.inj hstep
      exact hs
    -- the oldest push is about the next comment of the table
    | deliver =>
      cases hpending : s.pending with
      | nil => simp [commentBox, hpending] at hstep
      | cons c pending =>
        simp only [commentBox, hpending] at hstep
        obtain rfl := Option.some.inj hstep
        have hlength : s.box.length ≤ 5 := hs.length_eq ▸ length_serverBox s.arrived
        rw [testEvent_eq c hlength, serverBox_insert]
        refine List.forall₂_take 5 (.cons (sameEntry_pushed ?_) hs)
        exact (hfaithful c (by rw [hpending]; rfl)).2

/-- After every delivery of a run of faithful steps the box shows what the server would
render at that moment. -/
theorem comment_box (refs : Text.Html.References) (esc : Escaper refs) (page : List Char)
    {s t : BoxState}
    (h : (commentBox esc page).ReachableWithin (fun s a => a.Faithful refs page s) s)
    (hfaithful : BoxStep.deliver.Faithful refs page s)
    (hdeliver : (commentBox esc page).step s .deliver = some t) :
    List.Forall₂ (SameEntry refs) t.box (serverBox esc t.comments) := by
  have hbox := box_of_arrived (h.step hfaithful hdeliver)
  cases hpending : s.pending with
  | nil => simp [commentBox, hpending] at hdeliver
  | cons c pending =>
    obtain rfl : pending = [] := by
      simpa [hpending] using (hfaithful c (by rw [hpending]; rfl)).1
    simp only [commentBox, hpending] at hdeliver
    obtain rfl := Option.some.inj hdeliver
    exact hbox

/-! ### Concrete boxes -/

def Comment.short : Comment := ⟨1, 1, "Nice", 0⟩

def Comment.long : Comment := ⟨1, 1, "the picture I would have taken too", 0⟩

/-- On the page of a picture, a short comment into the empty box and a long one after it. -/
theorem comment_box_two :
    ∃ s : BoxState, s.comments.rows.length = 2 ∧ s.box.length = 2 ∧
      List.Forall₂ (SameEntry .basic) s.box (serverBox .html_escape s.comments) := by
  let S := commentBox .html_escape "/pictures/1".toList
  let cond := fun s (a : BoxStep) => a.Faithful .basic "/pictures/1".toList s
  have hinit : S.ReachableWithin cond ⟨.empty, [], []⟩ := .init ⟨rfl, rfl⟩
  have hcreate : S.ReachableWithin cond ⟨.empty, [.short], []⟩ :=
    .step (a := .create .short) hinit trivial rfl
  have hshort : ShownWhole .basic Comment.short.body :=
    ⟨by decide, (inert_of_plain (by decide)).unmarked⟩
  have hdeliver : S.ReachableWithin cond ⟨Table.empty.insert .short, [], _⟩ :=
    .step (a := .deliver) hcreate (by rintro c ⟨⟩; exact ⟨rfl, by decide, hshort⟩) rfl
  have hcreate' : S.ReachableWithin cond ⟨Table.empty.insert .short, [.long], _⟩ :=
    .step (a := .create .long) hdeliver trivial rfl
  have hbmp : ((Comment.long.body.toList.take 27).all fun c => c.toNat < 0x10000) = true := by
    decide
  have hlong : ShownCut .basic Comment.long.body := by
    refine ⟨(inert_of_plain (by decide)).unmarked, .inl ⟨by decide, fun c hc => ?_⟩⟩
    exact of_decide_eq_true (List.all_eq_true.mp hbmp c hc)
  exact ⟨_, rfl, rfl, comment_box .basic .html_escape "/pictures/1".toList hcreate'
    (by rintro c ⟨⟩; exact ⟨rfl, hlong⟩) rfl⟩

/-- A short comment in a box that has an entry gets three dots. -/
theorem short_comment_gets_dots :
    ∃ s : BoxState, (commentBox .html_escape "/pictures/1".toList).Reachable s ∧ s.pending = [] ∧
      ¬ List.Forall₂ (SameEntry .basic) s.box (serverBox .html_escape s.comments) := by
  let S := commentBox .html_escape "/pictures/1".toList
  let t := Table.empty.insert Comment.short
  have hinit : S.Reachable ⟨t, [], serverBox .html_escape t⟩ := .init ⟨rfl, rfl⟩
  have hcreate : S.Reachable ⟨t, [.short], serverBox .html_escape t⟩ :=
    hinit.step (a := .create .short) rfl
  have hdeliver : S.Reachable ⟨t.insert .short, [], _⟩ := hcreate.step (a := .deliver) rfl
  have hpushed : (pushedEntry "/pictures/1".toList .short (serverBox .html_escape t)).html =
      ascii "Nice..." := by decide
  have hserver : (serverEntry .html_escape .short).html = ascii "Nice" := by decide
  refine ⟨_, hdeliver, rfl, fun h => ?_⟩
  -- the heads of the two boxes have texts of different lengths
  have hboxes : List.Forall₂ (SameEntry .basic)
      (testEvent "/pictures/1".toList .short (serverBox .html_escape t))
      (serverBox .html_escape (t.insert .short)) := h
  rw [testEvent_eq _ (length_serverBox t), serverBox_insert t, List.take_succ_cons,
    List.take_succ_cons, List.forall₂_cons] at hboxes
  obtain ⟨⟨-, htokens⟩, -⟩ := hboxes
  rw [hpushed, hserver, show ascii "</a>" = 0x3c :: ascii "/a>" by decide,
    tokens_inert (inert_of_plain (by decide)) (by decide),
    tokens_inert (inert_of_plain (by decide)) (by decide)] at htokens
  have hlength := congrArg List.length htokens
  have hdots : (ascii "Nice...").length = 7 ∧ (ascii "Nice").length = 4 := by decide
  simp only [List.length_append, List.length_map, hdots] at hlength
  omega

end Gallery
