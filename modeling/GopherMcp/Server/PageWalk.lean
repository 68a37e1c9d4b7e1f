import GopherMcp.Server.ListPaging

/-!
# Walking the pages of a list that changes

A registry keeps its items under their names. A client asks for the first page and then follows the
cursor of each page to the next, while items are registered, replaced and removed between its requests.
Each page holds what is behind the last name the client has seen, so nothing is seen twice and nothing
that stays is missed.
-/

namespace GopherMcp

namespace Paging

variable {ν : Type}

/-- Items, each under its own name. -/
structure Listing (nameOf : ν → Bytes) where
  items : OrdMap Bytes ν
  named : ∀ entry ∈ items.entries, nameOf entry.2 = entry.1

/-- A registration, which replaces an item of the same name, or a removal. -/
inductive Change (ν : Type) where
  | register (item : ν)
  | unregister (name : Bytes)

variable {nameOf : ν → Bytes}

namespace Listing

def register (listing : Listing nameOf) (item : ν) : Listing nameOf where
  items := listing.items.insert (nameOf item) item
  named entry hentry := by
    obtain rfl | hold := OrdMap.mem_insertEntry hentry
    · rfl
    · exact listing.named entry hold

def unregister (listing : Listing nameOf) (name : Bytes) : Listing nameOf where
  items := listing.items.erase name
  named entry hentry := listing.named entry (List.mem_filter.mp hentry).1

def change (listing : Listing nameOf) : Change ν → Listing nameOf
  | .register item => listing.register item
  | .unregister name => listing.unregister name

end Listing

/-- What a client has seen: the pages, the list as it was at each request, and the cursor it was given
last. The walk has ended when there was none. -/
structure Walk (nameOf : ν → Bytes) where
  pages : List (List ν)
  listings : List (Listing nameOf)
  next : Option Bytes

/-- Ask for the page at a cursor, let the changes of a round happen, follow the cursor of the page. -/
def walk (signer : CursorSigner) (list : Bytes) (pageSize : Nat) (listing : Listing nameOf)
    (cursor : Option Bytes) : List (List (Change ν)) → Except PageError (Walk nameOf)
  | [] => do
      let page ← pageOf listing.items signer list cursor pageSize
      return { pages := [page.items], listings := [listing], next := page.nextCursor }
  | changes :: rounds => do
      let page ← pageOf listing.items signer list cursor pageSize
      match page.nextCursor with
      | none => return { pages := [page.items], listings := [listing], next := none }
      | some next =>
          let rest ← walk signer list pageSize (changes.foldl Listing.change listing) (some next)
            rounds
          return { pages := page.items :: rest.pages, listings := listing :: rest.listings,
                   next := rest.next }

/-! ### One page -/

/-- Behind the last name that was seen; anything, when none was. -/
def Follows (after : Option Bytes) (name : Bytes) : Prop := ∀ last ∈ after, last < name

instance decidableFollows (after : Option Bytes) (name : Bytes) : Decidable (Follows after name) :=
  inferInstanceAs (Decidable (∀ last ∈ after, last < name))

/-- The entries a client that has seen `after` has yet to see. -/
def behind (items : OrdMap Bytes ν) (after : Option Bytes) : List (Bytes × ν) :=
  items.entries.filter fun entry => Follows after entry.1

theorem behind_none (items : OrdMap Bytes ν) : behind items none = items.entries :=
  List.filter_eq_self.mpr fun _ _ => decide_eq_true fun _ h => by cases h

theorem sorted_behind (items : OrdMap Bytes ν) (after : Option Bytes) :
    OrdMap.EntriesSorted (behind items after) :=
  OrdMap.entriesSorted_filter items.sorted _

theorem dropWhile_eq_filter {entries : List (Bytes × ν)} (h : OrdMap.EntriesSorted entries)
    (last : Bytes) :
    entries.dropWhile (fun entry => entry.1 ≤ last) = entries.filter fun entry => last < entry.1 := by
  induction entries with
  | nil => rfl
  | cons entry rest ih =>
      obtain ⟨hhead, hrest⟩ := List.pairwise_cons.mp h
      by_cases hle : entry.1 ≤ last
      · rw [List.dropWhile_cons_of_pos (by simpa using hle), List.filter_cons_of_neg (by simpa using hle),
          ih hrest]
      · have hlt : last < entry.1 := not_le.mp hle
        rw [List.dropWhile_cons_of_neg (by simpa using hlt), eq_comm, List.filter_eq_self]
        intro other hother
        obtain rfl | hother := List.mem_cons.mp hother
        · exact decide_eq_true hlt
        · exact decide_eq_true (hlt.trans (hhead other hother))

theorem upperBound_eq (items : OrdMap Bytes ν) (last : Bytes) :
    upperBound items last = behind items (some last) := by
  rw [upperBound, dropWhile_eq_filter items.sorted, behind]
  congr 1
  funext entry
  simp [Follows]

theorem fillPage_cases (pageSize : Nat) (page rest : List (Bytes × ν)) :
    ∃ taken left, fillPage pageSize page rest = (page ++ taken, left) ∧ rest = taken ++ left ∧
      (left ≠ [] → pageSize ≠ 0 ∧ (page ++ taken).length = pageSize) := by
  induction rest generalizing page with
  | nil => exact ⟨[], [], by rw [fillPage, List.append_nil], rfl, fun h => absurd rfl h⟩
  | cons entry rest ih =>
      rw [fillPage]
      by_cases hfull : pageSize ≠ 0 ∧ page.length = pageSize
      · rw [if_pos hfull]
        exact ⟨[], entry :: rest, by rw [List.append_nil], rfl, fun _ => by simpa using hfull⟩
      · rw [if_neg hfull]
        obtain ⟨taken, left, hfill, hrest, hleft⟩ := ih (page ++ [entry])
        rw [List.append_assoc] at hfill hleft
        exact ⟨entry :: taken, left, hfill, congrArg (entry :: ·) hrest, hleft⟩

/-- The page behind what was seen: a first part of what is yet to see, and a cursor exactly when that
is not all. -/
theorem pageOf_cases (items : OrdMap Bytes ν) (signer : CursorSigner) (list : Bytes)
    (after : Option Bytes) (pageSize : Nat) :
    ∃ page left, behind items after = page ++ left ∧ (pageSize = 0 → left = []) ∧
      ((left = [] ∧ pageOf items signer list (after.map (signer.make list)) pageSize =
          .ok ⟨page.map Prod.snd, none⟩) ∨
        left ≠ [] ∧ ∃ before last, page = before ++ [last] ∧
          pageOf items signer list (after.map (signer.make list)) pageSize =
            .ok ⟨page.map Prod.snd, some (signer.make list last.1)⟩) := by
  have hstart : startOf items signer list (after.map (signer.make list)) =
      .ok (behind items after) := by
    cases after with
    | none => rw [behind_none]; rfl
    | some last => rw [Option.map_some, startOf, CursorSigner.read_make, ← upperBound_eq]
  obtain ⟨page, left, hfill, hrest, hleft⟩ := fillPage_cases pageSize [] (behind items after)
  rw [List.nil_append] at hfill hleft
  refine ⟨page, left, hrest, fun hzero => ?_, ?_⟩
  · by_contra hne
    exact (hleft hne).1 hzero
  by_cases hend : left = []
  · left
    refine ⟨hend, ?_⟩
    rw [pageOf, hstart]
    simp only [bind, Except.bind, hfill, hend]
    rfl
  · right
    obtain ⟨hsize, hlength⟩ := hleft hend
    have hpage : page ≠ [] := by
      intro hnil
      rw [hnil] at hlength
      exact hsize hlength.symm
    refine ⟨hend, page.dropLast, page.getLast hpage, (List.dropLast_append_getLast hpage).symm, ?_⟩
    rw [pageOf, hstart]
    simp only [bind, Except.bind, hfill]
    rw [if_pos hend, List.getLast?_eq_some_getLast hpage]
    rfl

/-! ### The walk -/

theorem names_eq {listing : Listing nameOf} {entries : List (Bytes × ν)}
    (h : entries ⊆ listing.items.entries) :
    (entries.map Prod.snd).map nameOf = entries.map Prod.fst := by
  rw [List.map_map]
  exact List.map_congr_left fun entry hentry => listing.named entry (h hentry)

theorem behind_subset (items : OrdMap Bytes ν) (after : Option Bytes) :
    behind items after ⊆ items.entries := fun _ h => (List.mem_filter.mp h).1

/-- A walk ends with the page at hand, or goes on behind the last name of it. -/
theorem walk_step (signer : CursorSigner) (list : Bytes) (pageSize : Nat)
    (listing : Listing nameOf) (after : Option Bytes) :
    ∃ page left, behind listing.items after = page ++ left ∧
      ((left = [] ∧ ∀ rounds, walk signer list pageSize listing (after.map (signer.make list)) rounds =
          .ok ⟨[page.map Prod.snd], [listing], none⟩) ∨
        ∃ before last, page = before ++ [last] ∧
          walk signer list pageSize listing (after.map (signer.make list)) [] =
            .ok ⟨[page.map Prod.snd], [listing], some (signer.make list last.1)⟩ ∧
          ∀ changes rounds w, walk signer list pageSize (changes.foldl Listing.change listing)
              ((some last.1).map (signer.make list)) rounds = .ok w →
            walk signer list pageSize listing (after.map (signer.make list)) (changes :: rounds) =
              .ok ⟨page.map Prod.snd :: w.pages, listing :: w.listings, w.next⟩) := by
  obtain ⟨page, left, hbehind, -, hpage⟩ := pageOf_cases listing.items signer list after pageSize
  refine ⟨page, left, hbehind, ?_⟩
  obtain ⟨hend, hpage⟩ | ⟨-, before, last, hlast, hpage⟩ := hpage
  · left
    refine ⟨hend, fun rounds => ?_⟩
    cases rounds with
    | nil => rw [walk, hpage]; rfl
    | cons => rw [walk, hpage]; rfl
  · right
    refine ⟨before, last, hlast, ?_, fun changes rounds w hw => ?_⟩
    · rw [walk, hpage]
      rfl
    · rw [Option.map_some] at hw
      rw [walk, hpage]
      simp only [bind, Except.bind, hw]
      rfl

/-- What a client that has seen `after` sees from there on: names in order, all behind that, and when
the walk has ended every name that was there at each request. -/
structure Sees (after : Option Bytes) (w : Walk nameOf) : Prop where
  ordered : (w.pages.flatten.map nameOf).Pairwise (· < ·)
  follows : ∀ name ∈ w.pages.flatten.map nameOf, Follows after name
  complete : w.next = none → ∀ name, Follows after name →
    (∀ listing ∈ w.listings, name ∈ listing.items.keys) → name ∈ w.pages.flatten.map nameOf

/-- The names on a page are in order and follow what was seen. -/
theorem page_names {listing : Listing nameOf} {after : Option Bytes} {page left : List (Bytes × ν)}
    (hbehind : behind listing.items after = page ++ left) :
    (page.map Prod.snd).map nameOf = page.map Prod.fst ∧
      (page.map Prod.fst).Pairwise (· < ·) ∧ ∀ name ∈ page.map Prod.fst, Follows after name := by
  have hsub : page ⊆ behind listing.items after := by
    rw [hbehind]
    exact List.subset_append_left _ _
  have hsorted := sorted_behind listing.items after
  rw [hbehind] at hsorted
  refine ⟨names_eq (List.Subset.trans hsub (behind_subset _ _)), ?_, fun name hname => ?_⟩
  · exact List.pairwise_map.mpr (List.pairwise_append.mp hsorted).1
  · obtain ⟨entry, hentry, rfl⟩ := List.mem_map.mp hname
    exact of_decide_eq_true (List.mem_filter.mp (hsub hentry)).2

theorem mem_behind {listing : Listing nameOf} {after : Option Bytes} {name : Bytes}
    (hfollows : Follows after name) (hmem : name ∈ listing.items.keys) :
    name ∈ (behind listing.items after).map Prod.fst := by
  obtain ⟨entry, hentry, rfl⟩ := List.mem_map.mp hmem
  exact List.mem_map_of_mem (List.mem_filter.mpr ⟨hentry, decide_eq_true hfollows⟩)

/-- The last page a client asked for. -/
theorem Sees.last {listing : Listing nameOf} {after : Option Bytes} {page left : List (Bytes × ν)}
    (hbehind : behind listing.items after = page ++ left) {next : Option Bytes}
    (hnext : next = none → left = []) :
    Sees after ⟨[page.map Prod.snd], [listing], next⟩ := by
  obtain ⟨hnames, hordered, hfollows⟩ := page_names hbehind
  have hflatten : [page.map Prod.snd].flatten.map nameOf = page.map Prod.fst := by
    rw [List.flatten_singleton, hnames]
  refine ⟨by rwa [hflatten], by rwa [hflatten], fun hended name hname hthere => ?_⟩
  have hmem := mem_behind hname (hthere listing (List.mem_singleton_self _))
  rwa [hbehind, hnext hended, List.append_nil, ← hflatten] at hmem

/-- A page, and what is seen behind the last name of it. -/
theorem Sees.cons {listing : Listing nameOf} {after : Option Bytes}
    {page left before : List (Bytes × ν)} {last : Bytes × ν}
    (hbehind : behind listing.items after = page ++ left) (hlast : page = before ++ [last])
    {w : Walk nameOf} (h : Sees (some last.1) w) :
    Sees after ⟨page.map Prod.snd :: w.pages, listing :: w.listings, w.next⟩ := by
  obtain ⟨hnames, hordered, hfollows⟩ := page_names hbehind
  have hflatten : (page.map Prod.snd :: w.pages).flatten.map nameOf =
      page.map Prod.fst ++ w.pages.flatten.map nameOf := by
    rw [List.flatten_cons, List.map_append, hnames]
  have hlastMem : last.1 ∈ page.map Prod.fst := by
    rw [hlast]
    exact List.mem_map_of_mem (List.mem_append_right _ (List.mem_singleton_self _))
  have hupTo : ∀ name ∈ page.map Prod.fst, name ≤ last.1 := by
    intro name hname
    rw [hlast, List.map_append, List.map_singleton] at hname hordered
    obtain hbefore | hsame := List.mem_append.mp hname
    · exact ((List.pairwise_append.mp hordered).2.2 name hbefore _ (List.mem_singleton_self _)).le
    · exact (List.mem_singleton.mp hsame).le
  have hbeyond : ∀ name ∈ w.pages.flatten.map nameOf, last.1 < name := fun name hname =>
    h.follows name hname last.1 rfl
  refine ⟨?_, ?_, fun hended name hname hthere => ?_⟩
  · rw [hflatten]
    refine List.pairwise_append.mpr ⟨hordered, h.ordered, fun name hname other hother => ?_⟩
    exact (hupTo name hname).trans_lt (hbeyond other hother)
  · rw [hflatten]
    intro name hname
    obtain hpage | hrest := List.mem_append.mp hname
    · exact hfollows name hpage
    · exact fun seen hseen =>
        (hfollows last.1 hlastMem seen hseen).trans (hbeyond name hrest)
  · rw [hflatten]
    by_cases hle : name ≤ last.1
    · -- what is left behind the page lies behind its last name
      apply List.mem_append_left
      have hmem := mem_behind hname (hthere listing List.mem_cons_self)
      rw [hbehind, List.map_append] at hmem
      obtain hpage | hleft := List.mem_append.mp hmem
      · exact hpage
      · obtain ⟨entry, hentry, rfl⟩ := List.mem_map.mp hleft
        have hsorted := sorted_behind listing.items after
        rw [hbehind] at hsorted
        have hlt := (List.pairwise_append.mp hsorted).2.2 last
          (hlast ▸ List.mem_append_right _ (List.mem_singleton_self _)) entry hentry
        exact absurd hle (not_le.mpr hlt)
    · apply List.mem_append_right
      refine h.complete hended name ?_ fun other hother => hthere other (List.mem_cons_of_mem _ hother)
      intro seen hseen
      cases hseen
      exact not_le.mp hle

theorem walk_sees (signer : CursorSigner) (list : Bytes) (pageSize : Nat)
    (listing : Listing nameOf) (after : Option Bytes) (rounds : List (List (Change ν))) :
    ∃ w, walk signer list pageSize listing (after.map (signer.make list)) rounds = .ok w ∧
      Sees after w := by
  induction rounds generalizing listing after with
  | nil =>
      obtain ⟨page, left, hbehind, ⟨hend, hwalk⟩ | ⟨before, last, -, hwalk, -⟩⟩ :=
        walk_step signer list pageSize listing after
      · exact ⟨_, hwalk [], Sees.last hbehind fun _ => hend⟩
      · exact ⟨_, hwalk, Sees.last hbehind fun h => by cases h⟩
  | cons changes rounds ih =>
      obtain ⟨page, left, hbehind, ⟨hend, hwalk⟩ | ⟨before, last, hlast, -, hwalk⟩⟩ :=
        walk_step signer list pageSize listing after
      · exact ⟨_, hwalk _, Sees.last hbehind fun _ => hend⟩
      · obtain ⟨w, hw, hsees⟩ := ih (changes.foldl Listing.change listing) (some last.1)
        exact ⟨_, hwalk changes rounds w hw, hsees.cons hbehind hlast⟩

/-! ### A list that does not change -/

/-- What is yet to see behind a page is what was left of it. -/
theorem behind_last {items : OrdMap Bytes ν} {after : Option Bytes} {before left : List (Bytes × ν)}
    {last : Bytes × ν} (h : behind items after = before ++ [last] ++ left) :
    behind items (some last.1) = left := by
  have hsorted := sorted_behind items after
  have hmem : last ∈ behind items after := by
    rw [h]
    simp
  have hfollows : Follows after last.1 := of_decide_eq_true (List.mem_filter.mp hmem).2
  rw [h] at hsorted
  obtain ⟨hfront, -, hcross⟩ := List.pairwise_append.mp hsorted
  calc behind items (some last.1)
      = (behind items after).filter fun entry => Follows (some last.1) entry.1 := by
        rw [behind, behind, List.filter_filter]
        apply List.filter_congr
        intro entry _
        have hiff : Follows (some last.1) entry.1 ↔
            Follows (some last.1) entry.1 ∧ Follows after entry.1 := by
          refine ⟨fun hlast => ⟨hlast, fun seen hseen => ?_⟩, And.left⟩
          exact (hfollows seen hseen).trans (hlast last.1 rfl)
        exact (decide_eq_decide.mpr hiff).trans (Bool.decide_and _ _)
    _ = (before ++ [last]).filter (fun entry => Follows (some last.1) entry.1) ++
          left.filter fun entry => Follows (some last.1) entry.1 := by
        rw [h, List.filter_append]
    _ = [] ++ left := by
        congr 1
        · refine List.filter_eq_nil_iff.mpr fun entry hentry => ?_
          rw [decide_eq_true_eq]
          intro hlast
          obtain hbefore | hsame := List.mem_append.mp hentry
          · have hlt := (List.pairwise_append.mp hfront).2.2 entry hbefore last
              (List.mem_singleton_self _)
            exact lt_asymm hlt (hlast last.1 rfl)
          · rw [List.mem_singleton.mp hsame] at hlast
            exact lt_irrefl _ (hlast last.1 rfl)
        · refine List.filter_eq_self.mpr fun entry hentry => decide_eq_true ?_
          intro seen hseen
          cases hseen
          exact hcross last (List.mem_append_right _ (List.mem_singleton_self _)) entry hentry

theorem walk_unchanged (signer : CursorSigner) (list : Bytes) (pageSize : Nat)
    (listing : Listing nameOf) (after : Option Bytes) (n : Nat) :
    ∃ w, walk signer list pageSize listing (after.map (signer.make list)) (List.replicate n []) =
        .ok w ∧
      (w.next = none → w.pages.flatten = (behind listing.items after).map Prod.snd) ∧
      ((behind listing.items after).length ≤ n → w.next = none) := by
  induction n generalizing after with
  | zero =>
      obtain ⟨page, left, hbehind, ⟨hend, hwalk⟩ | ⟨before, last, hlast, hwalk, -⟩⟩ :=
        walk_step signer list pageSize listing after
      · refine ⟨_, hwalk [], fun _ => ?_, fun _ => rfl⟩
        rw [hbehind, hend, List.append_nil, List.flatten_singleton]
      · refine ⟨_, hwalk, fun h => (by cases h), fun hlength => ?_⟩
        rw [hbehind, hlast, List.length_append, List.length_append, List.length_singleton] at hlength
        omega
  | succ n ih =>
      obtain ⟨page, left, hbehind, ⟨hend, hwalk⟩ | ⟨before, last, hlast, -, hwalk⟩⟩ :=
        walk_step signer list pageSize listing after
      · refine ⟨_, hwalk _, fun _ => ?_, fun _ => rfl⟩
        rw [hbehind, hend, List.append_nil, List.flatten_singleton]
      · have hleft := behind_last (hlast ▸ hbehind)
        obtain ⟨w, hw, hall, hends⟩ := ih (some last.1)
        refine ⟨_, hwalk [] _ w hw, fun hended => ?_, fun hlength => hends ?_⟩
        · rw [List.flatten_cons, hall hended, hleft, hbehind, List.map_append]
        · rw [hleft]
          rw [hbehind, hlast, List.length_append, List.length_append, List.length_singleton] at hlength
          omega

/-- A client that follows the cursors is never refused and sees the names in order; when it has come to
the end it has seen every name that was there at each of its requests. Over a list that does not change
the walk ends and the pages are the list, and without a page size the first page is all of it. -/
theorem walk_exact (signer : CursorSigner) (list : Bytes) (pageSize : Nat)
    (listing : Listing nameOf) :
    (∀ rounds, ∃ w, walk signer list pageSize listing none rounds = .ok w ∧
      (w.pages.flatten.map nameOf).Pairwise (· < ·) ∧
      (w.next = none → ∀ name, (∀ seen ∈ w.listings, name ∈ seen.items.keys) →
        name ∈ w.pages.flatten.map nameOf)) ∧
    (∀ n, ∃ w, walk signer list pageSize listing none (List.replicate n []) = .ok w ∧
      (w.next = none → w.pages.flatten = listing.items.values) ∧
      (listing.items.entries.length ≤ n → w.next = none)) ∧
    pageOf listing.items signer list none 0 = .ok ⟨listing.items.values, none⟩ := by
  refine ⟨fun rounds => ?_, fun n => ?_, ?_⟩
  · obtain ⟨w, hw, hsees⟩ := walk_sees signer list pageSize listing none rounds
    exact ⟨w, hw, hsees.ordered, fun hended name hthere =>
      hsees.complete hended name (fun _ h => by cases h) hthere⟩
  · obtain ⟨w, hw, hall, hends⟩ := walk_unchanged signer list pageSize listing none n
    rw [behind_none] at hall hends
    exact ⟨w, hw, hall, hends⟩
  · obtain ⟨page, left, hbehind, hleft, hpage⟩ :=
      pageOf_cases listing.items signer list none 0
    rw [behind_none, hleft rfl, List.append_nil] at hbehind
    obtain ⟨-, hpage⟩ | ⟨hmore, -⟩ := hpage
    · rw [OrdMap.values, hbehind]
      exact hpage
    · exact absurd (hleft rfl) hmore

end Paging

end GopherMcp
