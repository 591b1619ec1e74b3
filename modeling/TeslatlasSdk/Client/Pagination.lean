import TeslatlasSdk.Core.Errors
import Mathlib.Data.Finset.Card
import Mathlib.Data.Finset.Dedup

/-!
# `iteratePages`

Pages are loaded one after the other, each with the cursor of the one before it.  What the caller's
`load` answers, call by call, is the input; the requests made, the pages yielded and how the
iteration stands are the output.
-/

open Text Core

namespace Client

inductive ReadResult (π : Type) where
  | modified (value : π)
  | notModified

/-- A page, with its `next_cursor`; `none` is null. -/
class CursorPage (π : Type) where
  nextCursor : π → Option JsString

/-- Options of a paged read.  `withCursor` is `{ ...options, cursor }`. -/
class CursorOptions (ω : Type) where
  cursor : ω → Option JsString
  withCursor : ω → JsString → ω
  cursor_withCursor : ∀ options c, cursor (withCursor options c) = some c

export CursorPage (nextCursor)
export CursorOptions (cursor withCursor cursor_withCursor)

inductive Outcome where
  /-- `load` has not answered. -/
  | loading
  | completed
  | failed (error : Thrown)
  deriving DecidableEq

/-- A run of the iterator. -/
structure PageRun (ω π : Type) where
  requested : List ω
  yielded : List π
  outcome : Outcome

variable {ω π : Type} [CursorOptions ω] [CursorPage π]

def repeatedCursor : Thrown := .teslatlas (.protocolValidation "pagination.next_cursor")

/-- The loop of `iteratePages`. -/
def pageLoop (options : ω) (seen : List JsString) :
    List (Except Thrown (ReadResult π)) → PageRun ω π
  | [] => { requested := [options], yielded := [], outcome := .loading }
  | .error error :: _ => { requested := [options], yielded := [], outcome := .failed error }
  | .ok .notModified :: _ => { requested := [options], yielded := [], outcome := .completed }
  | .ok (.modified page) :: answers =>
      match nextCursor page with
      | none => { requested := [options], yielded := [page], outcome := .completed }
      | some c =>
          if c ∈ seen then
            { requested := [options], yielded := [page], outcome := .failed repeatedCursor }
          else
            let later := pageLoop (withCursor options c) (c :: seen) answers
            { later with requested := options :: later.requested, yielded := page :: later.yielded }

def iteratePages (firstOptions : ω) (answers : List (Except Thrown (ReadResult π))) : PageRun ω π :=
  pageLoop firstOptions (cursor firstOptions).toList answers

/-! ## Runs of fresh pages -/

/-- Pages that the loop goes on from: each has a next cursor, none of them seen before. -/
def FreshPages (seen : List JsString) : List π → Prop
  | [] => True
  | page :: pages => ∃ c, nextCursor page = some c ∧ c ∉ seen ∧ FreshPages (c :: seen) pages

/-- The pages as answers of `load`. -/
def asAnswers (pages : List π) : List (Except Thrown (ReadResult π)) :=
  pages.map fun page => .ok (.modified page)

theorem FreshPages.nextCursor_ne_none {seen : List JsString} {pages : List π}
    (h : FreshPages seen pages) : ∀ page ∈ pages, nextCursor page ≠ none := by
  induction pages generalizing seen with
  | nil => simp
  | cons page pages ih =>
    obtain ⟨c, hc, -, hpages⟩ := h
    intro p hp
    rcases List.mem_cons.mp hp with rfl | hp
    · simp [hc]
    · exact ih hpages p hp

theorem pageLoop_fresh {options : ω} {seen : List JsString} {page : π} {c : JsString}
    (hc : nextCursor page = some c) (hseen : c ∉ seen)
    (answers : List (Except Thrown (ReadResult π))) :
    pageLoop options seen (.ok (.modified page) :: answers) =
      { pageLoop (withCursor options c) (c :: seen) answers with
        requested := options :: (pageLoop (withCursor options c) (c :: seen) answers).requested
        yielded := page :: (pageLoop (withCursor options c) (c :: seen) answers).yielded } := by
  simp [pageLoop, hc, hseen]

-- Over fresh pages up to a page that is not modified, the loop yields them and completes.
theorem pageLoop_notModified (options : ω) {seen : List JsString} {pages : List π}
    (h : FreshPages seen pages) (rest : List (Except Thrown (ReadResult π))) :
    (pageLoop options seen (asAnswers pages ++ .ok .notModified :: rest)).yielded = pages ∧
      (pageLoop options seen (asAnswers pages ++ .ok .notModified :: rest)).outcome = .completed := by
  induction pages generalizing options seen with
  | nil => exact ⟨rfl, rfl⟩
  | cons page pages ih =>
    obtain ⟨c, hc, hseen, hpages⟩ := h
    obtain ⟨hyielded, houtcome⟩ := ih (withCursor options c) hpages
    rw [asAnswers, List.map_cons, List.cons_append, pageLoop_fresh hc hseen]
    exact ⟨congrArg (page :: ·) hyielded, houtcome⟩

-- A loop that completes has stopped at a page that is not modified or has no next cursor.
theorem pageLoop_completed {options : ω} {seen : List JsString}
    {answers : List (Except Thrown (ReadResult π))}
    (h : (pageLoop options seen answers).outcome = .completed) :
    ∃ pages rest, FreshPages seen pages ∧
      ((answers = asAnswers pages ++ .ok .notModified :: rest ∧
          (pageLoop options seen answers).yielded = pages) ∨
        ∃ last, answers = asAnswers pages ++ .ok (.modified last) :: rest ∧
          nextCursor last = none ∧ (pageLoop options seen answers).yielded = pages ++ [last]) := by
  induction answers generalizing options seen with
  | nil => simp [pageLoop] at h
  | cons answer answers ih =>
    match answer with
    | .error error => simp [pageLoop] at h
    | .ok .notModified => exact ⟨[], answers, trivial, .inl ⟨rfl, rfl⟩⟩
    | .ok (.modified page) =>
      cases hc : nextCursor page with
      | none =>
        refine ⟨[], answers, trivial, .inr ⟨page, rfl, hc, ?_⟩⟩
        simp [pageLoop, hc]
      | some c =>
        by_cases hseen : c ∈ seen
        · simp [pageLoop, hc, hseen] at h
        · rw [pageLoop_fresh hc hseen] at h ⊢
          obtain ⟨pages, rest, hfresh, hstop⟩ := ih h
          refine ⟨page :: pages, rest, ⟨c, hc, hseen, hfresh⟩, ?_⟩
          rcases hstop with ⟨rfl, hyielded⟩ | ⟨last, rfl, hlast, hyielded⟩
          · exact .inl ⟨rfl, congrArg (page :: ·) hyielded⟩
          · exact .inr ⟨last, rfl, hlast, congrArg (page :: ·) hyielded⟩

-- After the first request come requests with cursors that are new, each given by a page.
theorem pageLoop_requested (options : ω) (seen : List JsString)
    (answers : List (Except Thrown (ReadResult π))) :
    ∃ cs : List JsString, (pageLoop options seen answers).requested.map cursor =
        cursor options :: cs.map some ∧ cs.Nodup ∧ (∀ c ∈ cs, c ∉ seen) ∧
      (∀ c ∈ cs, ∃ page, Except.ok (ReadResult.modified page) ∈ answers ∧
        nextCursor page = some c) ∧
      ((pageLoop options seen answers).outcome = .loading → cs.length = answers.length) := by
  induction answers generalizing options seen with
  | nil => exact ⟨[], by simp [pageLoop]⟩
  | cons answer answers ih =>
    match answer with
    | .error error => exact ⟨[], by simp [pageLoop]⟩
    | .ok .notModified => exact ⟨[], by simp [pageLoop]⟩
    | .ok (.modified page) =>
      cases hc : nextCursor page with
      | none => exact ⟨[], by simp [pageLoop, hc]⟩
      | some c =>
        by_cases hseen : c ∈ seen
        · exact ⟨[], by simp [pageLoop, hc, hseen]⟩
        · obtain ⟨cs, hcs, hnodup, hnew, hgiven, hloading⟩ := ih (withCursor options c) (c :: seen)
          rw [pageLoop_fresh hc hseen]
          refine ⟨c :: cs, ?_, ?_, ?_, ?_, ?_⟩
          · simp only [List.map_cons, hcs, cursor_withCursor]
          · exact List.nodup_cons.mpr ⟨fun hmem => hnew c hmem List.mem_cons_self, hnodup⟩
          · intro d hd
            rcases List.mem_cons.mp hd with rfl | hd
            · exact hseen
            · exact fun hmem => hnew d hd (List.mem_cons_of_mem c hmem)
          · intro d hd
            rcases List.mem_cons.mp hd with rfl | hd
            · exact ⟨page, List.mem_cons_self, hc⟩
            · obtain ⟨p, hp, hpd⟩ := hgiven d hd
              exact ⟨p, List.mem_cons_of_mem _ hp, hpd⟩
          · intro h
            simp only [List.length_cons, hloading h]

-- A page whose next cursor was requested before ends the loop, before anything more is loaded.
theorem pageLoop_repeated {options : ω} {seen : List JsString}
    (hcursor : ∀ c, cursor options = some c → c ∈ seen)
    {before later : List (Except Thrown (ReadResult π))} {page : π} {c : JsString}
    (hc : nextCursor page = some c)
    (hloaded : before.length <
      (pageLoop options seen (before ++ .ok (.modified page) :: later)).requested.length)
    (hrepeated : c ∈ seen ∨
      c ∈ ((pageLoop options seen (before ++ .ok (.modified page) :: later)).requested.take
        (before.length + 1)).filterMap cursor) :
    (pageLoop options seen (before ++ .ok (.modified page) :: later)).outcome =
        .failed repeatedCursor ∧
      (pageLoop options seen (before ++ .ok (.modified page) :: later)).requested.length =
        before.length + 1 := by
  induction before generalizing options seen with
  | nil =>
    simp only [List.nil_append] at hloaded hrepeated ⊢
    have hseen : c ∈ seen := by
      rcases hrepeated with hseen | htaken
      · exact hseen
      · by_cases hseen : c ∈ seen
        · exact hseen
        · rw [pageLoop_fresh hc hseen] at htaken
          simp only [List.length_nil, List.take_succ_cons, List.take_zero, List.mem_filterMap,
            List.mem_singleton, exists_eq_left] at htaken
          exact hcursor c htaken
    simp [pageLoop, hc, hseen]
  | cons answer before ih =>
    rw [List.cons_append] at hloaded hrepeated ⊢
    match answer with
    | .error error => simp [pageLoop] at hloaded
    | .ok .notModified => simp [pageLoop] at hloaded
    | .ok (.modified first) =>
      cases hd : nextCursor first with
      | none => simp [pageLoop, hd] at hloaded
      | some d =>
        by_cases hseen : d ∈ seen
        · simp [pageLoop, hd, hseen] at hloaded
        · rw [pageLoop_fresh hd hseen] at hloaded hrepeated ⊢
          have hnew : ∀ e, cursor (withCursor options d) = some e → e ∈ d :: seen := by
            intro e he
            rw [cursor_withCursor, Option.some.injEq] at he
            exact he ▸ List.mem_cons_self
          have hmem : c ∈ d :: seen ∨ c ∈ ((pageLoop (withCursor options d) (d :: seen)
              (before ++ .ok (.modified page) :: later)).requested.take
                (before.length + 1)).filterMap cursor := by
            rcases hrepeated with h | h
            · exact .inl (List.mem_cons_of_mem d h)
            · simp only [List.length_cons, List.take_succ_cons, List.mem_filterMap,
                List.mem_cons] at h
              obtain ⟨o, rfl | ho, hoc⟩ := h
              · exact .inl (List.mem_cons_of_mem d (hcursor c hoc))
              · exact .inr (List.mem_filterMap.mpr ⟨o, ho, hoc⟩)
          simp only [List.length_cons, Nat.add_lt_add_iff_right] at hloaded
          obtain ⟨houtcome, hlength⟩ := ih hnew hloaded hmem
          exact ⟨houtcome, by simp only [List.length_cons, hlength]⟩

/-! ## Completeness of listings -/

/-- The law of a run over the answers of `load`. -/
structure PageLaw (firstOptions : ω) (answers : List (Except Thrown (ReadResult π))) : Prop where
  /-- A completed run is empty for a first page that is not modified, or has yielded every page up
  to one without a next cursor. -/
  complete : (iteratePages firstOptions answers).outcome = .completed →
    (∃ rest, answers = .ok .notModified :: rest ∧ (iteratePages firstOptions answers).yielded = []) ∨
      ∃ pages last rest, answers = asAnswers (pages ++ [last]) ++ rest ∧
        (iteratePages firstOptions answers).yielded = pages ++ [last] ∧
        (∀ page ∈ pages, nextCursor page ≠ none) ∧ nextCursor last = none
  distinct : ((iteratePages firstOptions answers).requested.map cursor).Nodup
  /-- With finitely many cursors, more answers than cursors end the run. -/
  ends : ∀ cursors : Finset JsString,
    (∀ page c, Except.ok (ReadResult.modified page) ∈ answers → nextCursor page = some c →
      c ∈ cursors) →
    cursors.card < answers.length → (iteratePages firstOptions answers).outcome ≠ .loading
  /-- A page whose next cursor has been requested ends the run, before another load. -/
  repeated : ∀ before page later c, answers = before ++ .ok (.modified page) :: later →
    before.length < (iteratePages firstOptions answers).requested.length →
    nextCursor page = some c →
    c ∈ ((iteratePages firstOptions answers).requested.take (before.length + 1)).filterMap cursor →
    (iteratePages firstOptions answers).outcome = .failed repeatedCursor ∧
      (iteratePages firstOptions answers).requested.length = before.length + 1

/-- A later page, reached over cursors that are all new, is answered as not modified. -/
def NotModifiedLater (firstOptions : ω) (answers : List (Except Thrown (ReadResult π))) : Prop :=
  ∃ pages rest, pages ≠ [] ∧ FreshPages (cursor firstOptions).toList pages ∧
    answers = asAnswers pages ++ .ok .notModified :: rest

omit [CursorPage π] in
theorem asAnswers_eq_nil {pages : List π} {rest last : List (Except Thrown (ReadResult π))}
    (h : asAnswers pages ++ rest = .ok .notModified :: last) : pages = [] := by
  cases pages with
  | nil => rfl
  | cons page pages => simp [asAnswers] at h

theorem iteratePages_distinct (firstOptions : ω) (answers : List (Except Thrown (ReadResult π))) :
    ((iteratePages firstOptions answers).requested.map cursor).Nodup := by
  obtain ⟨cs, hcs, hnodup, hnew, -, -⟩ :=
    pageLoop_requested firstOptions (cursor firstOptions).toList answers
  rw [iteratePages, hcs, List.nodup_cons]
  refine ⟨fun hmem => ?_, hnodup.map (Option.some_injective _)⟩
  obtain ⟨c, hc, heq⟩ := List.mem_map.mp hmem
  exact hnew c hc (by simp [← heq])

theorem iteratePages_ends (firstOptions : ω) {answers : List (Except Thrown (ReadResult π))}
    {cursors : Finset JsString}
    (hcursors : ∀ page c, Except.ok (ReadResult.modified page) ∈ answers →
      nextCursor page = some c → c ∈ cursors) (hlength : cursors.card < answers.length) :
    (iteratePages firstOptions answers).outcome ≠ .loading := by
  intro hloading
  obtain ⟨cs, -, hnodup, -, hgiven, hall⟩ :=
    pageLoop_requested firstOptions (cursor firstOptions).toList answers
  have hsubset : cs.toFinset ⊆ cursors := by
    intro c hc
    obtain ⟨page, hpage, hpc⟩ := hgiven c (List.mem_toFinset.mp hc)
    exact hcursors page c hpage hpc
  have hcard : cs.length ≤ cursors.card := by
    rw [← List.toFinset_card_of_nodup hnodup]
    exact Finset.card_le_card hsubset
  have := hall hloading
  omega

-- Listings are complete exactly when no later page is answered as not modified.
theorem pageLaw_iff (firstOptions : ω) (answers : List (Except Thrown (ReadResult π))) :
    PageLaw firstOptions answers ↔ ¬ NotModifiedLater firstOptions answers := by
  constructor
  · rintro hlaw ⟨pages, rest, hne, hfresh, rfl⟩
    obtain ⟨hyielded, houtcome⟩ := pageLoop_notModified firstOptions hfresh rest
    rcases hlaw.complete houtcome with ⟨last, hanswers, -⟩ | ⟨front, last, -, -, hpages, -, hlast⟩
    · exact hne (asAnswers_eq_nil hanswers)
    · have hmem : last ∈ pages := by
        have hall := hyielded.symm.trans hpages
        simp [hall]
      exact hfresh.nextCursor_ne_none last hmem hlast
  · intro hnot
    refine ⟨fun hcompleted => ?_, iteratePages_distinct firstOptions answers,
      fun cursors hcursors => iteratePages_ends firstOptions hcursors, ?_⟩
    · obtain ⟨pages, rest, hfresh, ⟨hanswers, hyielded⟩ | ⟨last, hanswers, hlast, hyielded⟩⟩ :=
        pageLoop_completed hcompleted
      · by_cases hne : pages = []
        · subst hne
          exact .inl ⟨rest, hanswers, hyielded⟩
        · exact absurd ⟨pages, rest, hne, hfresh, hanswers⟩ hnot
      · refine .inr ⟨pages, last, rest, ?_, hyielded, hfresh.nextCursor_ne_none, hlast⟩
        simp [hanswers, asAnswers]
    · rintro before page later c rfl hloaded hc hmem
      have hcursor : ∀ d, cursor firstOptions = some d → d ∈ (cursor firstOptions).toList :=
        fun d hd => by simp [hd]
      exact pageLoop_repeated hcursor hc hloaded (.inr hmem)

/-! A conditional listing whose first page has changed and whose second has not. -/

/-- `PageReadOptions`. -/
structure PageReadOptions where
  cursor : Option JsString := none
  limit : Option Nat := none
  ifNoneMatch : Option JsString := none
  deriving DecidableEq

instance : CursorOptions PageReadOptions where
  cursor options := options.cursor
  withCursor options c := { options with cursor := some c }
  cursor_withCursor _ _ := rfl

/-- A page of ids. -/
structure IdPage where
  items : List JsString
  next_cursor : Option JsString
  deriving DecidableEq

instance : CursorPage IdPage where
  nextCursor page := page.next_cursor

-- The first page names another one, and the iteration ends normally without it.
theorem iteratePages_truncates : ¬ PageLaw
    ({ ifNoneMatch := some (js "\"v1\"") } : PageReadOptions)
    [.ok (.modified ({ items := [js "a"], next_cursor := some (js "c2") } : IdPage)),
      .ok .notModified] := by
  intro hlaw
  rcases hlaw.complete (by decide) with ⟨rest, hanswers, -⟩ | ⟨pages, last, rest, -, hpages, -, hlast⟩
  · simp at hanswers
  · have hall : [({ items := [js "a"], next_cursor := some (js "c2") } : IdPage)] =
        pages ++ [last] := by
      rw [← hpages]
      decide
    have hmem : last ∈ [({ items := [js "a"], next_cursor := some (js "c2") } : IdPage)] := by
      simp [hall]
    rw [List.mem_singleton] at hmem
    subst hmem
    simp [nextCursor] at hlast

end Client
