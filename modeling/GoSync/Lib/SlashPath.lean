import GoSync.Encoding
import Mathlib.Data.List.Basic
import Mathlib.Data.List.Infix

/-!
# Slash-separated paths

Lexical treatment of paths as Go's `path` package has it (and `path/filepath` on Unix). Cleaning a path
walks its elements and keeps the names entered so far, innermost first; every other operation is stated by
the walk.
-/

namespace GoSync.SlashPath

abbrev Name := List Char

def dot : Name := ['.']

def dotdot : Name := ['.', '.']

def isRooted (p : List Char) : Bool :=
  p.head? = some '/'

def elements (p : List Char) : List Name :=
  p.splitOn '/'

/-- One element of a path. A relative path may climb above its start, a rooted one stays at the root. -/
def enter (rooted : Bool) (stack : List Name) (name : Name) : List Name :=
  if name = [] ∨ name = dot then
    stack
  else if name = dotdot then
    match stack with
    | [] => if rooted then [] else [dotdot]
    | top :: rest => if top = dotdot then dotdot :: top :: rest else rest
  else
    name :: stack

def walk (rooted : Bool) (stack names : List Name) : List Name :=
  names.foldl (enter rooted) stack

def names (p : List Char) : List Name :=
  (walk (isRooted p) [] (elements p)).reverse

def render (rooted : Bool) (names : List Name) : List Char :=
  if rooted then '/' :: ['/'].intercalate names
  else if names = [] then dot
  else ['/'].intercalate names

def clean (p : List Char) : List Char :=
  render (isRooted p) (names p)

def join (parts : List (List Char)) : List Char :=
  match parts.dropWhile (· = []) with
  | [] => []
  | rest => clean (['/'].intercalate rest)

def trim (p : List Char) : List Char :=
  ((p.dropWhile (· = '/')).reverse.dropWhile (· = '/')).reverse

def diverge : List Name → List Name → List Name × List Name
  | a :: as, b :: bs => if a = b then diverge as bs else (a :: as, b :: bs)
  | as, bs => (as, bs)

/-- `filepath.Rel`: the way from one path to another, up and then down. -/
def rel (base targ : List Char) : Option (List Char) :=
  if isRooted base ≠ isRooted targ then
    none
  else
    match diverge (names base) (names targ) with
    | ([], down) => some (render false down)
    | (up, down) =>
        if up.head? = some dotdot then none
        else some (render false (List.replicate up.length dotdot ++ down))

example : clean "a//./b/../c/".toList = "a/c".toList ∧ clean "/..".toList = "/".toList
    ∧ clean "a/../..".toList = "..".toList ∧ join ["".toList, ".".toList] = ".".toList
    ∧ rel "/a/b".toList "/a/c".toList = some "../c".toList := by
  decide

structure Plain (name : Name) : Prop where
  ne_nil : name ≠ []
  ne_dot : name ≠ dot
  ne_dotdot : name ≠ dotdot
  slash_free : '/' ∉ name

instance (name : Name) : Decidable (Plain name) :=
  decidable_of_iff (name ≠ [] ∧ name ≠ dot ∧ name ≠ dotdot ∧ '/' ∉ name)
    ⟨fun ⟨hnil, hdot, hdotdot, hslash⟩ => ⟨hnil, hdot, hdotdot, hslash⟩,
      fun h => ⟨h.ne_nil, h.ne_dot, h.ne_dotdot, h.slash_free⟩⟩

variable {x : Name} {name : Name}

section Walk

variable {r : Bool} {s : List Name} {xs ys : List Name}

theorem enter_skip (h : name = [] ∨ name = dot) : enter r s name = s :=
  if_pos h

theorem enter_above : enter r (dotdot :: s) dotdot = dotdot :: dotdot :: s :=
  rfl

theorem enter_back {top : Name} (h : top ≠ dotdot) : enter r (top :: s) dotdot = s := by
  unfold enter
  rw [if_neg (by decide), if_pos rfl]
  exact if_neg h

theorem enter_down (hskip : ¬ (name = [] ∨ name = dot)) (hup : name ≠ dotdot) :
    enter r s name = name :: s := by
  unfold enter
  rw [if_neg hskip, if_neg hup]

theorem enter_plain (h : Plain name) : enter r s name = name :: s :=
  enter_down (not_or.mpr ⟨h.ne_nil, h.ne_dot⟩) h.ne_dotdot

theorem element_cases (hx : '/' ∉ x) : (x = [] ∨ x = dot) ∨ x = dotdot ∨ Plain x := by
  by_cases hskip : x = [] ∨ x = dot
  · exact Or.inl hskip
  by_cases hup : x = dotdot
  · exact Or.inr (Or.inl hup)
  · push Not at hskip
    exact Or.inr (Or.inr ⟨hskip.1, hskip.2, hup, hx⟩)

@[simp]
theorem walk_nil : walk r s [] = s :=
  rfl

@[simp]
theorem walk_cons : walk r s (x :: xs) = walk r (enter r s x) xs :=
  rfl

theorem walk_append : walk r s (xs ++ ys) = walk r (walk r s xs) ys :=
  List.foldl_append

theorem walk_plain (h : ∀ name ∈ xs, Plain name) : walk r s xs = xs.reverse ++ s := by
  induction xs generalizing s with
  | nil => rfl
  | cons x xs ih =>
      rw [walk_cons, enter_plain (h x List.mem_cons_self),
        ih fun name hname => h name (List.mem_cons_of_mem _ hname)]
      simp

def Kept (r : Bool) (stack : List Name) : Prop :=
  ∀ name ∈ stack, Plain name ∨ (name = dotdot ∧ r = false)

theorem Kept.enter (hs : Kept r s) (hx : '/' ∉ x) : Kept r (enter r s x) := by
  rcases element_cases hx with hskip | rfl | hplain
  · rwa [enter_skip hskip]
  · cases s with
    | nil =>
        cases r with
        | true => exact hs
        | false => exact fun name hname => Or.inr ⟨List.mem_singleton.mp hname, rfl⟩
    | cons top rest =>
        by_cases htop : top = dotdot
        · subst htop
          have hrel := (hs dotdot List.mem_cons_self).resolve_left fun hplain => hplain.ne_dotdot rfl
          rw [enter_above]
          intro name hname
          rcases List.mem_cons.mp hname with rfl | hname
          · exact Or.inr hrel
          · exact hs name hname
        · rw [enter_back htop]
          exact fun name hname => hs name (List.mem_cons_of_mem _ hname)
  · rw [enter_plain hplain]
    intro name hname
    rcases List.mem_cons.mp hname with rfl | hname
    · exact Or.inl hplain
    · exact hs name hname

theorem Kept.walk (hs : Kept r s) (hxs : ∀ x ∈ xs, '/' ∉ x) : Kept r (walk r s xs) := by
  induction xs generalizing s with
  | nil => exact hs
  | cons x xs ih =>
      exact ih (hs.enter (hxs x List.mem_cons_self)) fun y hy => hxs y (List.mem_cons_of_mem _ hy)

/-- A path can be cleaned before it is joined. -/
theorem walk_walk (hxs : ∀ x ∈ xs, '/' ∉ x) :
    walk r s (walk false [] xs).reverse = walk r s xs := by
  induction xs using List.reverseRecOn with
  | nil => rfl
  | append_singleton xs x ih =>
      have hmem : ∀ y ∈ xs, '/' ∉ y := fun y hy => hxs y (List.mem_append_left _ hy)
      have ih := ih hmem
      have hkept : Kept false (walk false [] xs) := Kept.walk (fun _ h => nomatch h) hmem
      rw [walk_append, walk_append, ← ih]
      generalize walk false [] xs = stack at hkept
      rw [walk_cons, walk_nil, walk_cons, walk_nil]
      rcases element_cases (hxs x (by simp)) with hskip | rfl | hplain
      · rw [enter_skip hskip, enter_skip hskip]
      · cases stack with
        | nil => cases r <;> rfl
        | cons top rest =>
            by_cases htop : top = dotdot
            · subst htop
              rw [enter_above, List.reverse_cons (a := dotdot), walk_append]
              rfl
            · have hplain := (hkept top List.mem_cons_self).resolve_right fun h => htop h.1
              rw [enter_back htop, List.reverse_cons, walk_append, walk_cons, walk_nil,
                enter_plain hplain, enter_back htop]
      · rw [enter_plain hplain, List.reverse_cons, walk_append]
        rfl

end Walk

section Elements

variable {r rooted : Bool} {s : List Name} {p q : List Char} {ns : List Name}

theorem elements_slash_free : ∀ x ∈ elements p, '/' ∉ x := by
  induction p with
  | nil => simp [elements]
  | cons c p ih =>
      intro x hx
      rw [elements, List.splitOn_cons_eq_if_modifyHead] at hx
      change ∀ x ∈ p.splitOn '/', '/' ∉ x at ih
      split_ifs at hx with hc
      · rcases List.mem_cons.mp hx with rfl | hx
        · exact List.not_mem_nil
        · exact ih x hx
      · cases helems : p.splitOn '/' with
        | nil => simp [helems] at hx
        | cons head tail =>
            rw [helems, List.modifyHead_cons, List.mem_cons] at hx
            rw [helems] at ih
            rcases hx with rfl | hx
            · intro hslash
              rcases List.mem_cons.mp hslash with rfl | hslash
              · exact hc (beq_self_eq_true _)
              · exact ih head List.mem_cons_self hslash
            · exact ih x (List.mem_cons_of_mem _ hx)

theorem elements_append_slash : elements (p ++ '/' :: q) = elements p ++ elements q :=
  List.splitOn_append_cons_self p q

theorem walk_elements_append_slash :
    walk r s (elements (p ++ '/' :: q)) = walk r (walk r s (elements p)) (elements q) := by
  rw [elements_append_slash, walk_append]

@[simp]
theorem walk_elements_nil : walk r s (elements []) = s :=
  rfl

theorem walk_elements_intercalate (h : ∀ name ∈ ns, '/' ∉ name) :
    walk r s (elements (['/'].intercalate ns)) = walk r s ns := by
  cases ns with
  | nil => rfl
  | cons name ns =>
      rw [elements, List.splitOn_intercalate '/' h (List.cons_ne_nil _ _)]

theorem walk_elements_render (h : ∀ name ∈ ns, '/' ∉ name) :
    walk r s (elements (render rooted ns)) = walk r s ns := by
  unfold render
  split_ifs with hrooted hnil
  · have hslash : '/' :: ['/'].intercalate ns = [] ++ '/' :: ['/'].intercalate ns := rfl
    rw [hslash, walk_elements_append_slash, walk_elements_nil, walk_elements_intercalate h]
  · rw [hnil]
    rfl
  · exact walk_elements_intercalate h

theorem names_kept : ∀ name ∈ names p, Plain name ∨ (name = dotdot ∧ isRooted p = false) := by
  intro name hname
  exact Kept.walk (fun _ h => absurd h List.not_mem_nil) elements_slash_free name (List.mem_reverse.mp hname)

theorem names_plain_of_rooted (h : isRooted p = true) : ∀ name ∈ names p, Plain name := by
  intro name hname
  exact (names_kept name hname).resolve_right fun hup => absurd hup.2 (by simp [h])

theorem names_slash_free : ∀ name ∈ names p, '/' ∉ name := by
  intro name hname
  rcases names_kept name hname with hplain | ⟨rfl, -⟩
  · exact hplain.slash_free
  · decide

theorem isRooted_intercalate (h : ∀ name ∈ ns, '/' ∉ name) (hne : ∀ name ∈ ns, name ≠ []) :
    isRooted (['/'].intercalate ns) = false := by
  cases ns with
  | nil => rfl
  | cons name ns =>
      obtain ⟨c, rest, rfl⟩ := List.exists_cons_of_ne_nil (hne name List.mem_cons_self)
      have hslash : c ≠ '/' := fun hc => h _ List.mem_cons_self (hc ▸ List.mem_cons_self)
      cases ns with
      | nil => simpa [isRooted, List.intercalate] using hslash
      | cons next ns => simpa [isRooted, List.intercalate] using hslash

theorem isRooted_render (h : ∀ name ∈ ns, '/' ∉ name) (hne : ∀ name ∈ ns, name ≠ []) :
    isRooted (render rooted ns) = rooted := by
  cases rooted with
  | true => rfl
  | false =>
      unfold render
      rw [if_neg Bool.false_ne_true]
      split_ifs
      · rfl
      · exact isRooted_intercalate h hne

theorem names_ne_nil : ∀ name ∈ names p, name ≠ [] := by
  intro name hname
  rcases names_kept name hname with hplain | ⟨rfl, -⟩
  · exact hplain.ne_nil
  · decide

theorem isRooted_clean : isRooted (clean p) = isRooted p :=
  isRooted_render names_slash_free names_ne_nil

theorem names_clean : names (clean p) = names p := by
  have hwalk : walk (isRooted p) [] (names p) = walk (isRooted p) [] (elements p) := by
    cases hrooted : isRooted p with
    | true =>
        rw [walk_plain (names_plain_of_rooted hrooted), names, hrooted, List.reverse_reverse,
          List.append_nil]
    | false =>
        rw [names, hrooted]
        exact walk_walk elements_slash_free
  rw [names, isRooted_clean, clean, walk_elements_render names_slash_free, hwalk, names]

theorem walk_elements_dropWhile :
    walk r s (elements (p.dropWhile (· = '/'))) = walk r s (elements p) := by
  induction p with
  | nil => rfl
  | cons c p ih =>
      rw [List.dropWhile_cons]
      split_ifs with hc
      · have hc : c = '/' := of_decide_eq_true hc
        rw [ih, hc]
        exact (walk_elements_append_slash (p := [])).symm
      · rfl

theorem walk_elements_dropWhile_reverse :
    walk r s (elements (p.reverse.dropWhile (· = '/')).reverse) = walk r s (elements p) := by
  induction p using List.reverseRecOn with
  | nil => rfl
  | append_singleton p c ih =>
      rw [List.reverse_append, List.reverse_singleton, List.singleton_append, List.dropWhile_cons]
      split_ifs with hc
      · have hc : c = '/' := of_decide_eq_true hc
        rw [ih, hc]
        exact (walk_elements_append_slash (q := [])).symm
      · rw [List.reverse_cons, List.reverse_reverse]

theorem walk_elements_trim : walk r s (elements (trim p)) = walk r s (elements p) :=
  walk_elements_dropWhile_reverse.trans walk_elements_dropWhile

theorem join_nil : join [[], q] = if q = [] then [] else clean q := by
  by_cases hq : q = [] <;> simp [join, List.dropWhile, hq, List.intercalate]

theorem join_of_ne_nil (hp : p ≠ []) : join [p, q] = clean (p ++ '/' :: q) := by
  simp [join, List.dropWhile, hp, List.intercalate]

theorem isRooted_append_of_ne_nil (hp : p ≠ []) : isRooted (p ++ q) = isRooted p := by
  rw [isRooted, List.head?_append_of_ne_nil _ hp, isRooted]

theorem walk_elements_join_relative (hp : isRooted p = false) (hq : isRooted q = false) :
    walk r s (elements (join [p, q])) = walk r s (elements p ++ elements q) := by
  have hclean : ∀ text : List Char, isRooted text = false →
      walk r s (elements (clean text)) = walk r s (elements text) := by
    intro text htext
    rw [clean, walk_elements_render names_slash_free, names, htext, walk_walk elements_slash_free]
  by_cases hnil : p = []
  · subst hnil
    rw [join_nil]
    split_ifs with hempty
    · rw [hempty]
      rfl
    · exact hclean q hq
  · have hrooted : isRooted (p ++ '/' :: q) = false := (isRooted_append_of_ne_nil hnil).trans hp
    rw [join_of_ne_nil hnil, hclean _ hrooted, elements_append_slash]

theorem isRooted_join_relative (hp : isRooted p = false) (hq : isRooted q = false) :
    isRooted (join [p, q]) = false := by
  by_cases hnil : p = []
  · rw [hnil, join_nil]
    split_ifs
    · rfl
    · rw [isRooted_clean, hq]
  · rw [join_of_ne_nil hnil, isRooted_clean, isRooted_append_of_ne_nil hnil, hp]

theorem names_join_relative (hp : isRooted p = false) (hq : isRooted q = false) :
    names (join [p, q]) = (walk false [] (elements p ++ elements q)).reverse := by
  rw [names, isRooted_join_relative hp hq, walk_elements_join_relative hp hq]

theorem join_relative (hp : isRooted p = false) (hq : isRooted q = false) (hne : q ≠ []) :
    join [p, q] = render false (walk false [] (elements p ++ elements q)).reverse := by
  rw [← names_join_relative hp hq]
  by_cases hnil : p = []
  · rw [hnil, join_nil, if_neg hne, names_clean]
    rw [clean, hq]
  · have hrooted : isRooted (p ++ '/' :: q) = false := (isRooted_append_of_ne_nil hnil).trans hp
    rw [join_of_ne_nil hnil, names_clean, clean, hrooted]

theorem ne_nil_of_rooted (hp : isRooted p = true) : p ≠ [] := by
  rintro rfl
  exact absurd hp (by decide)

theorem isRooted_join_rooted (hp : isRooted p = true) : isRooted (join [p, q]) = true := by
  have hnil := ne_nil_of_rooted hp
  rw [join_of_ne_nil hnil, isRooted_clean, isRooted_append_of_ne_nil hnil, hp]

theorem names_join_rooted (hp : isRooted p = true) :
    names (join [p, q]) = (walk true [] (elements p ++ elements q)).reverse := by
  have hnil := ne_nil_of_rooted hp
  rw [join_of_ne_nil hnil, names_clean, names, isRooted_append_of_ne_nil hnil, hp,
    elements_append_slash]

variable {xs : List Name}

theorem localDepth_cons {depth : Nat} :
    localDepth depth (x :: xs) = if x = [] ∨ x = dot then localDepth depth xs
      else if x = dotdot then if depth = 0 then none else localDepth (depth - 1) xs
      else localDepth (depth + 1) xs :=
  rfl

/-- A local path never climbs above its start. -/
theorem walk_local (hxs : ∀ x ∈ xs, '/' ∉ x) {below : List Name}
    (hbelow : ∀ name ∈ below, Plain name) (h : (localDepth below.length xs).isSome) :
    ∃ reached, walk r (below ++ s) xs = reached ++ s ∧ ∀ name ∈ reached, Plain name := by
  induction xs generalizing below with
  | nil => exact ⟨below, rfl, hbelow⟩
  | cons x xs ih =>
      have hrest : ∀ y ∈ xs, '/' ∉ y := fun y hy => hxs y (List.mem_cons_of_mem _ hy)
      rw [walk_cons]
      rcases element_cases (hxs x List.mem_cons_self) with hskip | rfl | hplain
      · rw [enter_skip hskip]
        rw [localDepth_cons, if_pos hskip] at h
        exact ih hrest hbelow h
      · rw [localDepth_cons, if_neg (by decide), if_pos rfl] at h
        cases below with
        | nil => simp at h
        | cons top below =>
            rw [List.cons_append, enter_back (hbelow top List.mem_cons_self).ne_dotdot]
            exact ih hrest (fun name hname => hbelow name (List.mem_cons_of_mem _ hname)) h
      · rw [localDepth_cons, if_neg (not_or.mpr ⟨hplain.ne_nil, hplain.ne_dot⟩),
          if_neg hplain.ne_dotdot] at h
        rw [enter_plain hplain, ← List.cons_append]
        refine ih hrest ?_ h
        intro name hname
        rcases List.mem_cons.mp hname with rfl | hname
        · exact hplain
        · exact hbelow name hname

theorem localDepth_isSome (h : dotdot ∉ xs) (depth : Nat) :
    (localDepth depth xs).isSome := by
  induction xs generalizing depth with
  | nil => rfl
  | cons x xs ih =>
      have hrest : dotdot ∉ xs := fun hmem => h (List.mem_cons_of_mem _ hmem)
      have hx : x ≠ dotdot := fun hx => h (hx ▸ List.mem_cons_self)
      rw [localDepth_cons, if_neg hx]
      split_ifs
      · exact ih hrest depth
      · exact ih hrest (depth + 1)

variable {as bs : List Name}

theorem intercalate_injective (ha : ∀ name ∈ as, '/' ∉ name ∧ name ≠ [])
    (hb : ∀ name ∈ bs, '/' ∉ name ∧ name ≠ []) (h : ['/'].intercalate as = ['/'].intercalate bs) :
    as = bs := by
  have hread : ∀ ns : List Name, (∀ name ∈ ns, '/' ∉ name ∧ name ≠ []) →
      (elements (['/'].intercalate ns)).filter (· ≠ []) = ns := by
    intro ns hns
    cases ns with
    | nil => rfl
    | cons name ns =>
        rw [elements, List.splitOn_intercalate '/' (fun l hl => (hns l hl).1) (List.cons_ne_nil _ _),
          List.filter_eq_self]
        exact fun l hl => decide_eq_true (hns l hl).2
  rw [← hread as ha, h, hread bs hb]

theorem intercalate_append (ha : as ≠ []) (hb : bs ≠ []) :
    ['/'].intercalate (as ++ bs) = ['/'].intercalate as ++ '/' :: ['/'].intercalate bs := by
  induction as with
  | nil => exact absurd rfl ha
  | cons a as ih =>
      cases as with
      | nil => simp [List.intercalate_cons_of_ne_nil hb]
      | cons next as =>
          rw [List.cons_append, List.intercalate_cons_of_ne_nil (by simp), ih (List.cons_ne_nil _ _),
            List.intercalate_cons_of_ne_nil (List.cons_ne_nil _ _)]
          simp

theorem intercalate_slash_append (ha : ∀ name ∈ as, '/' ∉ name)
    (hb : ∀ name ∈ bs, '/' ∉ name) (hne : as ≠ []) :
    ['/'].intercalate as ++ ['/'] <+: ['/'].intercalate bs ↔ as <+: bs ∧ as ≠ bs := by
  constructor
  · rintro ⟨rest, hrest⟩
    have hbs : bs ≠ [] := by
      rintro rfl
      simp at hrest
    have helems := congrArg elements hrest
    rw [List.append_assoc, List.singleton_append, elements_append_slash, elements, elements, elements,
      List.splitOn_intercalate '/' ha hne, List.splitOn_intercalate '/' hb hbs] at helems
    refine ⟨⟨_, helems⟩, ?_⟩
    rintro rfl
    exact List.splitOn_ne_nil '/' rest (List.append_right_eq_self.mp helems)
  · rintro ⟨⟨rest, rfl⟩, hproper⟩
    have hrest : rest ≠ [] := fun hnil => hproper (by rw [hnil, List.append_nil])
    rw [intercalate_append hne hrest]
    exact ⟨['/'].intercalate rest, by simp⟩

theorem walk_of_no_dotdot (h : dotdot ∉ xs) :
    walk r s xs = (xs.filter fun x => x ≠ [] ∧ x ≠ dot).reverse ++ s := by
  induction xs generalizing s with
  | nil => rfl
  | cons x xs ih =>
      have hrest : dotdot ∉ xs := fun hmem => h (List.mem_cons_of_mem _ hmem)
      have hx : x ≠ dotdot := fun hx => h (hx ▸ List.mem_cons_self)
      rw [walk_cons, ih hrest, List.filter_cons]
      by_cases hskip : x = [] ∨ x = dot
      · rw [enter_skip hskip, if_neg (by simpa [imp_iff_not_or] using hskip)]
      · rw [enter_down hskip hx, if_pos (by simpa [not_or] using hskip)]
        simp

theorem infix_of_mem_elements (hx : x ∈ elements p) : x <:+: p := by
  obtain ⟨front, back, hsplit⟩ := List.append_of_mem hx
  have htext : p = ['/'].intercalate (elements p) := (List.intercalate_splitOn '/').symm
  rw [htext, hsplit]
  by_cases hfront : front = []
  · rw [hfront, List.nil_append]
    by_cases hback : back = []
    · rw [hback, List.intercalate_singleton]
    · rw [List.intercalate_cons_of_ne_nil hback, List.append_assoc]
      exact (List.prefix_append _ _).isInfix
  · rw [intercalate_append hfront (List.cons_ne_nil _ _)]
    by_cases hback : back = []
    · rw [hback, List.intercalate_singleton]
      exact ⟨['/'].intercalate front ++ ['/'], [], by simp⟩
    · rw [List.intercalate_cons_of_ne_nil hback]
      exact ⟨['/'].intercalate front ++ ['/'], ['/'] ++ ['/'].intercalate back, by simp⟩

theorem dotdot_notMem_elements (h : ¬ dotdot <:+: p) : dotdot ∉ elements p :=
  fun hmem => h (infix_of_mem_elements hmem)

theorem mem_enter {x name : Name} (hx : '/' ∉ x) (h : name ∈ enter r s x) : name ∈ s ∨ name = x := by
  rcases element_cases hx with hskip | rfl | hplain
  · rw [enter_skip hskip] at h
    exact Or.inl h
  · cases s with
    | nil =>
        cases r with
        | true => exact absurd h List.not_mem_nil
        | false => exact Or.inr (List.mem_singleton.mp h)
    | cons top rest =>
        by_cases htop : top = dotdot
        · subst htop
          rw [enter_above] at h
          exact (List.mem_cons.mp h).symm
        · rw [enter_back htop] at h
          exact Or.inl (List.mem_cons_of_mem _ h)
  · rw [enter_plain hplain] at h
    exact (List.mem_cons.mp h).symm

theorem mem_walk (hxs : ∀ x ∈ xs, '/' ∉ x) (h : name ∈ walk r s xs) :
    name ∈ s ∨ name ∈ xs := by
  induction xs generalizing s with
  | nil => exact Or.inl h
  | cons x xs ih =>
      rcases ih (fun y hy => hxs y (List.mem_cons_of_mem _ hy)) h with hmem | hmem
      · rcases mem_enter (hxs x List.mem_cons_self) hmem with hmem | rfl
        · exact Or.inl hmem
        · exact Or.inr List.mem_cons_self
      · exact Or.inr (List.mem_cons_of_mem _ hmem)

theorem names_subset_elements : names p ⊆ elements p := by
  intro name hname
  have hmem := mem_walk elements_slash_free (List.mem_reverse.mp hname)
  exact hmem.resolve_left List.not_mem_nil

theorem mem_clean {c : Char} (h : c ∈ clean p) : c ∈ p ∨ c = '/' ∨ c = '.' := by
  have hnames : c ∈ ['/'].intercalate (names p) → c ∈ p ∨ c = '/' := by
    generalize hns : names p = ns
    have hsub : ∀ name ∈ ns, ∀ c ∈ name, c ∈ p := by
      intro name hname c hc
      exact (infix_of_mem_elements (names_subset_elements (hns ▸ hname))).subset hc
    clear hns
    induction ns with
    | nil => exact fun hmem => absurd hmem List.not_mem_nil
    | cons name ns ih =>
        intro hmem
        by_cases hlast : ns = []
        · rw [hlast, List.intercalate_singleton] at hmem
          exact Or.inl (hsub name List.mem_cons_self c hmem)
        · rw [List.intercalate_cons_of_ne_nil hlast, List.append_assoc] at hmem
          rcases List.mem_append.mp hmem with hmem | hmem
          · exact Or.inl (hsub name List.mem_cons_self c hmem)
          · rcases List.mem_append.mp hmem with hmem | hmem
            · exact Or.inr (List.mem_singleton.mp hmem)
            · exact ih (fun other hother => hsub other (List.mem_cons_of_mem _ hother)) hmem
  unfold clean render at h
  split_ifs at h
  · rcases List.mem_cons.mp h with hslash | h
    · exact Or.inr (Or.inl hslash)
    · exact (hnames h).imp_right Or.inl
  · exact Or.inr (Or.inr (List.mem_singleton.mp h))
  · exact (hnames h).imp_right Or.inl

/-- Trimming a rooted path leaves its names. -/
theorem trim_render_rooted (h : ∀ name ∈ ns, '/' ∉ name ∧ name ≠ []) :
    trim (render true ns) = ['/'].intercalate ns := by
  have hfree : ∀ name ∈ ns, '/' ∉ name := fun name hname => (h name hname).1
  have hstart : (['/'].intercalate ns).dropWhile (· = '/') = ['/'].intercalate ns := by
    have hrooted := isRooted_intercalate hfree fun name hname => (h name hname).2
    cases htext : ['/'].intercalate ns with
    | nil => rfl
    | cons c text =>
        rw [htext] at hrooted
        have hc : c ≠ '/' := by simpa [isRooted] using hrooted
        rw [List.dropWhile_cons, if_neg (by simpa using hc)]
  have hend : (['/'].intercalate ns).reverse.dropWhile (· = '/') = (['/'].intercalate ns).reverse := by
    cases htext : (['/'].intercalate ns).reverse with
    | nil => rfl
    | cons c text =>
        have hc : c ≠ '/' := by
          rintro rfl
          have htext : ['/'].intercalate ns = text.reverse ++ '/' :: [] := by
            rw [← List.reverse_cons, ← htext, List.reverse_reverse]
          have hns : ns ≠ [] := by
            rintro rfl
            simp at htext
          have helems := congrArg elements htext
          rw [elements_append_slash, elements, List.splitOn_intercalate '/' hfree hns] at helems
          have hempty : [] ∈ ns := by
            rw [helems]
            exact List.mem_append_right _ List.mem_cons_self
          exact (h [] hempty).2 rfl
        rw [List.dropWhile_cons, if_neg (by simpa using hc)]
  have hrender : render true ns = '/' :: ['/'].intercalate ns := rfl
  rw [trim, hrender, List.dropWhile_cons, if_pos (by decide), hstart, hend, List.reverse_reverse]

end Elements

section Rel

variable {as bs down : List Name} {base targ : List Char}

theorem diverge_fst_eq_nil : (diverge as bs).1 = [] ↔ as <+: bs := by
  induction as generalizing bs with
  | nil => simp [diverge]
  | cons a as ih =>
      cases bs with
      | nil => simp [diverge]
      | cons b bs =>
          rw [diverge, List.cons_prefix_cons]
          by_cases hab : a = b
          · rw [if_pos hab, ih, and_iff_right hab]
          · rw [if_neg hab]
            exact iff_of_false (List.cons_ne_nil _ _) fun h => hab h.1

theorem diverge_snd_subset : (diverge as bs).2 ⊆ bs := by
  induction as generalizing bs with
  | nil => exact List.Subset.refl _
  | cons a as ih =>
      cases bs with
      | nil => exact List.Subset.refl _
      | cons b bs =>
          rw [diverge]
          split_ifs
          · exact List.subset_cons_of_subset _ ih
          · exact List.Subset.refl _

def leadsUp (p : List Char) : Bool :=
  p = dotdot ∨ dotdot ++ ['/'] <+: p

theorem leadsUp_render_dotdot : leadsUp (render false (dotdot :: down)) = true := by
  cases down with
  | nil => rfl
  | cons name down =>
      rw [render, if_neg Bool.false_ne_true, if_neg (List.cons_ne_nil _ _),
        List.intercalate_cons_of_ne_nil (List.cons_ne_nil _ _)]
      exact decide_eq_true (Or.inr (List.prefix_append _ _))

theorem leadsUp_render_plain (h : ∀ name ∈ down, Plain name) :
    leadsUp (render false down) = false := by
  cases down with
  | nil => rfl
  | cons name down =>
      have hplain := h name List.mem_cons_self
      have hfree : ∀ l ∈ name :: down, '/' ∉ l := fun l hl => (h l hl).slash_free
      rw [render, if_neg Bool.false_ne_true, if_neg (List.cons_ne_nil _ _)]
      refine decide_eq_false ?_
      have hdots : ['/'].intercalate [dotdot] = dotdot := List.intercalate_singleton
      have hfreeDots : ∀ l ∈ [dotdot], '/' ∉ l := by decide
      rintro (hup | hup)
      · rw [← hdots] at hup
        have hnames := congrArg elements hup
        rw [elements, elements, List.splitOn_intercalate '/' hfree (List.cons_ne_nil _ _),
          List.splitOn_intercalate '/' hfreeDots (List.cons_ne_nil _ _)] at hnames
        exact hplain.ne_dotdot (List.cons.inj hnames).1
      · rw [← hdots, intercalate_slash_append hfreeDots hfree (List.cons_ne_nil _ _),
          List.cons_prefix_cons] at hup
        exact hplain.ne_dotdot hup.1.1.symm

theorem rel_inside (hb : isRooted base = true) (ht : isRooted targ = true) :
    (∃ way, rel base targ = some way ∧ leadsUp way = false) ↔ names base <+: names targ := by
  have hdown : ∀ name ∈ (diverge (names base) (names targ)).2, Plain name := by
    intro name hname
    exact names_plain_of_rooted ht name (diverge_snd_subset hname)
  rw [← diverge_fst_eq_nil, rel, if_neg (by simp [hb, ht])]
  rcases hdiverge : diverge (names base) (names targ) with ⟨up, down⟩
  rw [hdiverge] at hdown
  cases up with
  | nil => exact iff_of_true ⟨_, rfl, leadsUp_render_plain hdown⟩ rfl
  | cons first up =>
      refine iff_of_false ?_ (List.cons_ne_nil _ _)
      rintro ⟨way, hway, hstays⟩
      dsimp only at hway
      split_ifs at hway
      cases hway
      rw [List.length_cons, List.replicate_succ, List.cons_append, leadsUp_render_dotdot] at hstays
      exact Bool.noConfusion hstays

end Rel

end GoSync.SlashPath
