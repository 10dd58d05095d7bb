import Commonwake.CursorText
import Commonwake.ExportVerification
import Commonwake.LogImportability
import Mathlib.Data.List.TakeWhile

/-!
# Exporting the own log

`export` prints the log up to the head which it finds at its start, one page in
each line.  It holds no lock between two pages, so that the log may grow.
-/

namespace Commonwake

open Outcome Serde HashChain

/-! ## The command -/

inductive ExportError
  | failed (error : CommonwakeError)
  | bail (message : String)

/-- What a page is read from, and the clock at its checkpoint. -/
structure ExportReading where
  db : Db
  now : ℤ

section

variable (P : Primitives) (identity : NodeIdentity P)

/-- The loop of the command: the pages which it prints, and how it ends. -/
def exportLoop (snapshotHead : ℤ) (readings : ℕ → ExportReading) (page : ℕ) (cursor : ℤ) :
    List FederationBundle × Except ExportError Unit :=
  if _hmore : cursor < snapshotHead then
    match federationBundle P identity cursor (min (snapshotHead - cursor) 500).toNat
        (readings page).now (readings page).db with
    | .error error => ([], .error (.failed error))
    | .ok bundle =>
        if _hstuck : bundle.throughCursor ≤ cursor then
          ([], .error (.bail s!"export made no progress at cursor {cursor}"))
        else
          let (rest, result) := exportLoop snapshotHead readings (page + 1) bundle.throughCursor
          (bundle :: rest, result)
  else ([], .ok ())
termination_by (snapshotHead - cursor).toNat
decreasing_by omega

def exportCommand (after : ℤ) (start : Db) (readings : ℕ → ExportReading) :
    List FederationBundle × Except ExportError Unit :=
  let snapshotHead := start.head
  if after < 0 ∨ after > snapshotHead then
    ([], .error (.bail
      s!"export cursor {after} is outside the snapshot range 0..={snapshotHead}"))
  else if after = snapshotHead then
    match federationBundle P identity after 1 (readings 0).now (readings 0).db with
    | .error error => ([], .error (.failed error))
    | .ok bundle => ([bundle], .ok ())
  else exportLoop P identity snapshotHead readings 0 after

/-- The line of a page. -/
def exportLine (bundle : FederationBundle) : String := P.toText (bundle.toJson P)

/-- What the command writes. -/
def exportText (pages : List FederationBundle) : String :=
  TextBytes.ofChars (pages.flatMap fun page => TextBytes.chars (exportLine P page) ++ ['\n'])

/-- The text of the page is one line, as the one of every compact writer. -/
structure FederationBundle.OneLine (bundle : FederationBundle) : Prop where
  newline : '\n' ∉ TextBytes.chars (exportLine P bundle)
  carriageReturn : (TextBytes.chars (exportLine P bundle)).getLast? ≠ some '\r'
  nonblank : trim (exportLine P bundle) ≠ ""

/-- The pages of a log which follow each other from one cursor to another. -/
inductive OwnPages (log : List OriginEvent) : ℕ → ℕ → List FederationBundle → Prop
  | nil (cursor : ℕ) : OwnPages log cursor cursor []
  | cons (cursor through limit : ℕ) (now : ℤ) (rest : List FederationBundle)
      (hprogress : (ownPage P identity log cursor limit now).events = [] → rest = [])
      (hrest : OwnPages log
        (cursor + (ownPage P identity log cursor limit now).events.length) through rest) :
      OwnPages log cursor through (ownPage P identity log cursor limit now :: rest)

end

section

variable {P : Primitives} {identity : NodeIdentity P} {log whole : List OriginEvent}
  {cursor through limit : ℕ} {pages : List FederationBundle}

/-! ## The printed pages -/

/-- A page which ends within a part of the log is the same page of the whole log. -/
theorem ownPage_of_beginning (hlog : log <+: whole) (hlimit : 0 < limit)
    (hwithin : cursor + limit ≤ log.length) (now : ℤ) :
    ownPage P identity whole cursor limit now = ownPage P identity log cursor limit now := by
  obtain ⟨rest, rfl⟩ := hlog
  have hevents : ((log ++ rest).drop cursor).take (max 1 (min limit maxFederationEvents)) =
      (log.drop cursor).take (max 1 (min limit maxFederationEvents)) := by
    rw [List.drop_append_of_le_length (by omega), List.take_append_of_le_length]
    rw [List.length_drop]
    omega
  have hcount : cursor + ((log.drop cursor).take
      (max 1 (min limit maxFederationEvents))).length ≤ log.length := by
    rw [List.length_take, List.length_drop]
    omega
  unfold ownPage
  simp only [hevents, List.take_append_of_le_length hcount]

theorem length_events_ownPage (identity : NodeIdentity P) (hless : cursor < log.length)
    (hlimit : 0 < limit) (hsmall : limit ≤ maxFederationEvents)
    (hwithin : cursor + limit ≤ log.length) (now : ℤ) :
    (ownPage P identity log cursor limit now).events.length = limit := by
  simp only [ownPage, List.length_take, List.length_drop]
  omega

/-- The loop prints the log up to the head, whatever was logged in the meantime. -/
theorem exportLoop_eq (readings : ℕ → ExportReading)
    (hreadings : ∀ page, ∃ whole, log <+: whole ∧ OwnLog P identity (readings page).db whole)
    (page : ℕ) (hcursor : cursor ≤ log.length) :
    ∃ pages, exportLoop P identity log.length readings page cursor = (pages, .ok ()) ∧
      OwnPages P identity log cursor log.length pages := by
  -- The events which are left get fewer with every page.
  induction hleft : log.length - cursor using Nat.strong_induction_on generalizing cursor page with
  | _ left ih =>
      unfold exportLoop
      by_cases hmore : (cursor : ℤ) < log.length
      · rw [dif_pos hmore]
        have hless : cursor < log.length := by exact_mod_cast hmore
        obtain ⟨limit, hlimit⟩ : ∃ limit : ℕ,
            (min ((log.length : ℤ) - cursor) 500).toNat = limit := ⟨_, rfl⟩
        have hpositive : 0 < limit := by omega
        have hwithin : cursor + limit ≤ log.length := by omega
        obtain ⟨whole, hbegins, hown⟩ := hreadings page
        have hserved := hown.federationBundle_eq (hcursor.trans hbegins.length_le) limit
          (readings page).now
        rw [ownPage_of_beginning hbegins hpositive hwithin] at hserved
        have hcount := length_events_ownPage identity hless hpositive
          (by unfold maxFederationEvents; omega) hwithin (readings page).now
        have hthrough : (ownPage P identity log cursor limit (readings page).now).throughCursor =
            (cursor + limit : ℕ) :=
          congrArg (fun count => ((cursor + count : ℕ) : ℤ)) hcount
        obtain ⟨rest, hrest, hpages⟩ := ih (log.length - (cursor + limit)) (by omega) (page + 1)
          hwithin rfl
        rw [hlimit, hserved]
        simp only
        rw [dif_neg (by rw [hthrough]; push_cast; omega), hthrough, hrest]
        refine ⟨_, rfl, .cons cursor log.length limit _ rest ?_ ?_⟩
        · intro hnil
          rw [hnil, List.length_nil] at hcount
          omega
        · rw [hcount]
          exact hpages
      · rw [dif_neg hmore]
        have hend : cursor = log.length := by omega
        rw [hend]
        exact ⟨[], rfl, .nil _⟩

/-- The pages hold the events between the two cursors. -/
theorem OwnPages.eventsOf (h : OwnPages P identity log cursor through pages)
    (hcursor : cursor ≤ log.length) :
    cursor ≤ through ∧ through ≤ log.length ∧
      Commonwake.eventsOf pages = (log.drop cursor).take (through - cursor) := by
  induction h with
  | nil cursor => simpa [Commonwake.eventsOf] using hcursor
  | cons cursor through limit now rest hprogress hrest ih =>
      generalize hevents : (ownPage P identity log cursor limit now).events = events at *
      have htake : events <+: log.drop cursor := by
        rw [← hevents]
        exact List.take_prefix _ _
      have hlength := htake.length_le
      rw [List.length_drop] at hlength
      obtain ⟨hless, hthrough, hall⟩ := ih (by omega)
      refine ⟨by omega, hthrough, ?_⟩
      change (ownPage P identity log cursor limit now).events ++ Commonwake.eventsOf rest = _
      rw [hevents, hall]
      have hsame := List.prefix_iff_eq_take.mp htake
      rw [show through - cursor = events.length + (through - (cursor + events.length)) by omega,
        List.take_add, ← hsame, List.drop_drop]

/-! ## Reading a line again -/

theorem OriginEvent.ofJson_toJson {x : OriginEvent} (h : IsI64 x.sequence) :
    OriginEvent.ofJson x.toJson = some x := by
  have hnullable : ∀ text : Option String, nullable string (nullOr .string text) = some text := by
    rintro (_ | text) <;> rfl
  simp only [OriginEvent.toJson, OriginEvent.ofJson]
  rw [show fields _ _ = some _ from rfl]
  simp only [required, Serde.optional, defaulted, List.lookup_cons, String.reduceBEq,
    Option.bind_eq_bind, Option.bind_some, string_string, value_eq, i64_int h, hnullable,
    Option.pure_def]

theorem FederationBundle.ofJson_toJson {x : FederationBundle} (hfrom : IsI64 x.fromCursor)
    (hthrough : IsI64 x.throughCursor) (hcheckpoint : IsI64 x.checkpoint.cursor)
    (hevents : ∀ event ∈ x.events, IsI64 event.sequence) :
    FederationBundle.ofJson P (x.toJson P) = some x := by
  have hlist : list OriginEvent.ofJson (.array (x.events.map OriginEvent.toJson)) =
      some x.events := by
    have hitems := items_map fun event hevent => OriginEvent.ofJson_toJson (hevents event hevent)
    rwa [List.map_id'] at hitems
  simp only [FederationBundle.toJson, FederationBundle.ofJson]
  rw [show fields _ _ = some _ from rfl]
  simp only [required, List.lookup_cons, String.reduceBEq, Option.bind_eq_bind,
    Option.bind_some, string_string, i64_int hfrom, i64_int hthrough, hlist,
    Checkpoint.ofJson_toJson hcheckpoint, Option.pure_def]

/-- The lines of the text are the lines of the pages. -/
theorem bufferedLines_exportText (h : ∀ page ∈ pages, page.OneLine P) :
    bufferedLines (exportText P pages) = pages.map (exportLine P) := by
  have hcharacters : (pages.flatMap fun page => TextBytes.chars (exportLine P page) ++ ['\n']) =
      ['\n'].intercalate (pages.map (fun page => TextBytes.chars (exportLine P page)) ++
        [[]]) := by
    clear h
    induction pages with
    | nil => rfl
    | cons page rest ih =>
        rw [List.flatMap_cons, ih, List.map_cons, List.cons_append]
        cases rest <;> simp [List.intercalate, List.append_assoc]
  have hsplit : (TextBytes.chars (exportText P pages)).splitOn '\n' =
      pages.map (fun page => TextBytes.chars (exportLine P page)) ++ [[]] := by
    unfold exportText
    rw [TextBytes.ofChars_eq, TextBytes.chars_eq, String.toList_ofList, hcharacters]
    refine List.splitOn_intercalate '\n' ?_ (by simp)
    intro line hline
    rcases List.mem_append.mp hline with hpage | hlast
    · obtain ⟨page, hmem, rfl⟩ := List.mem_map.mp hpage
      exact (h page hmem).newline
    · rw [List.mem_singleton.mp hlast]
      exact List.not_mem_nil
  unfold bufferedLines
  simp only [hsplit, List.dropLast_concat, List.getLast?_concat, Option.getD_some, if_true,
    List.map_map]
  refine List.map_congr_left fun page hpage => ?_
  simp only [Function.comp_apply, stripCarriageReturn]
  rw [if_neg (h page hpage).carriageReturn, TextBytes.ofChars_eq, TextBytes.chars_eq,
    String.ofList_toList]

end

/-! ## Verifying the pages -/

/-- The variables of `verify_export` after the pages from one cursor to another. -/
structure ExportProgress.Reached (P : Primitives) (identity : NodeIdentity P)
    (log : List OriginEvent) (progress : ExportProgress) (start reached count : ℕ) : Prop where
  originNodeId : progress.originNodeId = some identity.nodeId
  publicKey : progress.originNodePublicKey = some identity.publicKey
  firstCursor : progress.firstCursor = some (start : ℤ)
  cursor : progress.cursor = some (reached : ℤ)
  eventHash : progress.eventHash =
    some (lastHash OriginEvent.eventHash zeroHash (log.take reached))
  pages : progress.pages = count
  events : start + progress.events = reached

/-- The same, when there may be no page yet. -/
def ExportProgress.Follows (P : Primitives) (identity : NodeIdentity P)
    (log : List OriginEvent) (progress : ExportProgress) (start reached count : ℕ) : Prop :=
  (progress = .start ∧ start = reached ∧ count = 0) ∨
    progress.Reached P identity log start reached count

section

variable {P : Primitives} {identity : NodeIdentity P} {db : Db} {log : List OriginEvent}
  {cursor through limit start count : ℕ} {now : ℤ} {pages : List FederationBundle}
  {progress : ExportProgress}

theorem OwnLog.readPage_ownPage (h : OwnLog P identity db log) (limit : ℕ) (now : ℤ)
    (hcursor : cursor ≤ log.length)
    (hrange : (log.length : ℤ) < 2 ^ 63) :
    readPage P (exportLine P (ownPage P identity log cursor limit now)) =
      some (ownPage P identity log cursor limit now) := by
  have hlength : cursor + (ownPage P identity log cursor limit now).events.length ≤
      log.length := by
    simp only [ownPage, List.length_take, List.length_drop]
    omega
  have hthrough : IsI64 (cursor + (ownPage P identity log cursor limit now).events.length : ℕ) :=
    ⟨by omega, by omega⟩
  unfold readPage exportLine
  rw [P.parse_toText, Option.bind_some]
  refine FederationBundle.ofJson_toJson ⟨?_, ?_⟩ hthrough hthrough ?_
  · change -2 ^ 63 ≤ (cursor : ℤ)
    omega
  · change (cursor : ℤ) < 2 ^ 63
    omega
  · intro event hevent
    have hbounds := h.chain.numbered.mem_bounds
      (List.mem_of_mem_drop (List.mem_of_mem_take hevent))
    exact ⟨by omega, by omega⟩

theorem OwnLog.verifyContinuation_ownPage (h : OwnLog P identity db log) (number limit : ℕ)
    (now : ℤ) (hfollows : progress.Follows P identity log start cursor count) :
    ∃ continued, verifyContinuation number (ownPage P identity log cursor limit now) progress =
        .ok continued ∧
      (continued.advance (ownPage P identity log cursor limit now)).Reached P identity log start
        (cursor + (ownPage P identity log cursor limit now).events.length) (count + 1) := by
  generalize hpage : ownPage P identity log cursor limit now = page
  have horigin : page.originNodeId = identity.nodeId := by rw [← hpage]; rfl
  have hkey : page.originNodePublicKey = identity.publicKey := by rw [← hpage]; rfl
  have hfrom : page.fromCursor = cursor := by rw [← hpage]; rfl
  have hthrough : page.throughCursor = (cursor + page.events.length : ℕ) := by
    rw [← hpage]
    rfl
  have hhash : page.checkpoint.eventHash =
      lastHash OriginEvent.eventHash zeroHash (log.take (cursor + page.events.length)) := by
    rw [← hpage]
    rfl
  rcases hfollows with ⟨rfl, rfl, rfl⟩ | hreached
  · refine ⟨_, rfl, congrArg some horigin, congrArg some hkey, congrArg some hfrom,
      congrArg some hthrough, congrArg some hhash, rfl, ?_⟩
    simp [ExportProgress.advance, ExportProgress.start]
  · refine ⟨progress, ?_, hreached.originNodeId, hreached.publicKey, hreached.firstCursor,
      congrArg some hthrough, congrArg some hhash, ?_, ?_⟩
    · have hlinked := (h.chain.slice cursor (max 1 (min limit maxFederationEvents))).linked
      change Linked OriginEvent.previousHash OriginEvent.eventHash _
        (ownPage P identity log cursor limit now).events at hlinked
      rw [hpage] at hlinked
      unfold verifyContinuation
      simp only [hreached.originNodeId, hreached.publicKey, hreached.cursor, hreached.eventHash,
        okOr_some, ok_bind, horigin, hkey, hfrom]
      rw [rejectIf_of_not (by simp), rejectIf_of_not (by simp)]
      cases hevents : page.events with
      | nil => rfl
      | cons first rest =>
          rw [hevents] at hlinked
          simp only [List.head?_cons, ok_bind]
          rw [rejectIf_of_not (by simpa using hlinked.1)]
          rfl
    · change progress.pages + 1 = _
      rw [hreached.pages]
    · change start + (progress.events + page.events.length) = _
      rw [← hreached.events]
      omega

/-- A line which holds a page is taken when the page fits. -/
theorem OwnLog.verifyExportLine_ownPage (h : OwnLog P identity db log)
    (hcursor : cursor ≤ log.length) (hrange : (log.length : ℤ) < 2 ^ 63) (number : ℕ)
    (hfollows : progress.Follows P identity log start cursor count)
    (hmore : progress.sawEmptyPage = false)
    (hline : (ownPage P identity log cursor limit now).OneLine P) :
    (isOk (verifyExportLine P progress
        (number, exportLine P (ownPage P identity log cursor limit now))) ↔
      (ownPage P identity log cursor limit now).Fits P) ∧
    ∀ next, verifyExportLine P progress
        (number, exportLine P (ownPage P identity log cursor limit now)) = .ok next →
      next.Reached P identity log start
        (cursor + (ownPage P identity log cursor limit now).events.length) (count + 1) ∧
      next.sawEmptyPage = (ownPage P identity log cursor limit now).events.isEmpty := by
  obtain ⟨continued, hcontinued, hreached⟩ := h.verifyContinuation_ownPage number limit now
    hfollows
  have hverified := h.verifyBundle_iff cursor limit now
  have hread := h.readPage_ownPage limit now hcursor hrange
  generalize ownPage P identity log cursor limit now = page at *
  unfold verifyExportLine
  simp only [hline.nonblank, if_false, hmore, hread, okOr_some, ok_bind]
  rw [rejectIf_of_not (by simp)]
  simp only [ok_bind]
  cases hresult : verifyBundle P page with
  | ok =>
      simp only [Except.toOption, okOr_some, ok_bind, hcontinued, pure_eq_ok, Except.ok.injEq]
      refine ⟨iff_of_true (isOk_ok _) (hverified.mp hresult), ?_⟩
      rintro next rfl
      exact ⟨hreached, rfl⟩
  | error error =>
      have hunfit : ¬ page.Fits P := by
        rw [← hverified, hresult]
        intro hverify
        cases hverify
      simp only [Except.toOption, okOr_none, error_bind]
      refine ⟨iff_of_false (not_isOk_error _) hunfit, ?_⟩
      rintro next ⟨⟩

/-- The lines of the pages are taken when every page fits. -/
theorem OwnLog.verifyExportLines (h : OwnLog P identity db log)
    (hrange : (log.length : ℤ) < 2 ^ 63) (hpages : OwnPages P identity log cursor through pages)
    (hcursor : cursor ≤ log.length) (number : ℕ)
    (hfollows : progress.Follows P identity log start cursor count)
    (hmore : progress.sawEmptyPage = true → pages = [])
    (hlines : ∀ page ∈ pages, page.OneLine P) :
    (isOk (foldState (verifyExportLine P) progress
        (numberLines number (pages.map (exportLine P)))) ↔ ∀ page ∈ pages, page.Fits P) ∧
    ∀ final, foldState (verifyExportLine P) progress
        (numberLines number (pages.map (exportLine P))) = .ok final →
      final.Follows P identity log start through (count + pages.length) := by
  induction hpages generalizing progress count number with
  | nil cursor =>
      refine ⟨iff_of_true (isOk_ok _) nofun, ?_⟩
      rintro final ⟨⟩
      exact hfollows
  | cons cursor through limit now rest hprogress hrest ih =>
      have hopen : progress.sawEmptyPage = false := by
        cases hsaw : progress.sawEmptyPage with
        | false => rfl
        | true => cases hmore hsaw
      have hlength : cursor + (ownPage P identity log cursor limit now).events.length ≤
          log.length := by
        simp only [ownPage, List.length_take, List.length_drop]
        omega
      obtain ⟨htaken, hnext⟩ := h.verifyExportLine_ownPage hcursor hrange number hfollows hopen
        (hlines _ List.mem_cons_self)
      simp only [List.map_cons, numberLines, foldState, List.forall_mem_cons, ← htaken]
      cases hline : verifyExportLine P progress
          (number, exportLine P (ownPage P identity log cursor limit now)) with
      | error error =>
          refine ⟨iff_of_false (not_isOk_error _) fun hall => not_isOk_error _ hall.1, ?_⟩
          rintro final ⟨⟩
      | ok next =>
          obtain ⟨hreached, hsaw⟩ := hnext next hline
          obtain ⟨hfits, hfinal⟩ := ih hlength (number + 1) (.inr hreached)
            (fun hempty => hprogress (List.isEmpty_iff.mp (hsaw.symm.trans hempty)))
            (fun page hpage => hlines page (List.mem_cons_of_mem _ hpage))
          simp only [ok_bind]
          refine ⟨⟨fun hok => ⟨isOk_ok _, hfits.mp hok⟩, fun hall => hfits.mpr hall.2⟩, ?_⟩
          intro final hfold
          rw [List.length_cons, show count + (rest.length + 1) = count + 1 + rest.length by omega]
          exact hfinal final hfold

/-- The verifier takes the text of the pages when every page fits, and reports where they
begin and end. -/
theorem OwnLog.verifyExport_iff (h : OwnLog P identity db log)
    (hrange : (log.length : ℤ) < 2 ^ 63) (hpages : OwnPages P identity log cursor through pages)
    (hcursor : cursor ≤ log.length) (hsome : pages ≠ []) (hlines : ∀ page ∈ pages, page.OneLine P) :
    (isOk (verifyExport P (exportText P pages)) ↔ ∀ page ∈ pages, page.Fits P) ∧
    ∀ report, verifyExport P (exportText P pages) = .ok report →
      report = ⟨"verified", identity.nodeId, identity.publicKey, cursor, through,
        lastHash OriginEvent.eventHash zeroHash (log.take through), pages.length,
        through - cursor, (cursor : ℤ) == 0⟩ := by
  obtain ⟨hfits, hfinal⟩ := h.verifyExportLines hrange hpages hcursor 1
    (.inl ⟨rfl, rfl, rfl⟩) nofun hlines
  have hreported : ∀ final, foldState (verifyExportLine P) .start
      (numberLines 1 (pages.map (exportLine P))) = .ok final →
        exportReport final = .ok ⟨"verified", identity.nodeId, identity.publicKey, cursor,
          through, lastHash OriginEvent.eventHash zeroHash (log.take through), pages.length,
          through - cursor, (cursor : ℤ) == 0⟩ := by
    intro final hfold
    rcases hfinal final hfold with ⟨-, -, hnone⟩ | hreached
    · rw [zero_add] at hnone
      exact absurd (List.length_eq_zero_iff.mp hnone) hsome
    · have hevents : final.events = through - cursor := by
        have hcount := hreached.events
        omega
      unfold exportReport
      simp only [hreached.originNodeId, hreached.publicKey, hreached.firstCursor,
        hreached.cursor, hreached.eventHash, hreached.pages, hevents, okOr_some, ok_bind,
        pure_eq_ok, zero_add]
  unfold verifyExport
  rw [bufferedLines_exportText hlines, ← hfits]
  cases hfold : foldState (verifyExportLine P) .start
      (numberLines 1 (pages.map (exportLine P))) with
  | error error =>
      refine ⟨iff_of_false (not_isOk_error _) (not_isOk_error _), ?_⟩
      rintro report ⟨⟩
  | ok final =>
      simp only [ok_bind, hreported final hfold]
      refine ⟨iff_of_true (isOk_ok _) (isOk_ok _), ?_⟩
      rintro report ⟨⟩
      rfl

end

/-! ## Every export -/

section

variable {P : Primitives} {identity : NodeIdentity P}

theorem run_events_beginning (identity : NodeIdentity P) (actions later : List Action) :
    (NodeState.run P identity actions).db.events <+:
      (NodeState.run P identity (actions ++ later)).db.events := by
  induction later using List.reverseRecOn with
  | nil => rw [List.append_nil]
  | append_singleton later action ih =>
      rw [← List.append_assoc, NodeState.run_append_singleton]
      exact ih.trans ((NodeState.run P identity (actions ++ later)).step_events action)

/-- The log at one time is the beginning of the log at a later time. -/
theorem OwnLog.begins_later {actions later : List Action} {log whole : List OriginEvent}
    (hlog : OwnLog P identity (NodeState.run P identity actions).db log)
    (hwhole : OwnLog P identity (NodeState.run P identity (actions ++ later)).db whole) :
    log <+: whole := by
  have hread := (run_events_beginning identity actions later).map (originEvent P)
  rw [hlog.read, hwhole.read] at hread
  have hoks : (log.map Except.ok : List (Result OriginEvent)).length = log.length :=
    List.length_map _
  rw [List.prefix_iff_eq_take, hoks, ← List.map_take] at hread
  rw [List.prefix_iff_eq_take]
  exact List.map_injective_iff.mpr (fun _ _ => Except.ok.inj) hread

/-- The pages of an export, and the part of the log which they are pages of. -/
theorem exportCommand_eq {actions : List Action} {later : ℕ → List Action} {log : List OriginEvent}
    {whole : ℕ → List OriginEvent} (clock : ℕ → ℤ) {after : ℕ}
    (hlog : OwnLog P identity (NodeState.run P identity actions).db log)
    (hwhole : ∀ page,
      OwnLog P identity (NodeState.run P identity (actions ++ later page)).db (whole page))
    (hafter : after ≤ log.length) :
    ∃ pages db base through, exportCommand P identity after (NodeState.run P identity actions).db
        (fun page => ⟨(NodeState.run P identity (actions ++ later page)).db, clock page⟩) =
          (pages, .ok ()) ∧
      OwnLog P identity db base ∧ base <+: whole 0 ∧
      OwnPages P identity base after through pages ∧ after ≤ base.length ∧ pages ≠ [] ∧
      if after = log.length then through ≤ after + 1 else through = log.length := by
  have hbegins := fun page => hlog.begins_later (hwhole page)
  unfold exportCommand
  simp only
  rw [hlog.head_eq, if_neg (by omega)]
  by_cases hend : after = log.length
  · have hreached := hafter.trans (hbegins 0).length_le
    rw [if_pos (by exact_mod_cast hend), (hwhole 0).federationBundle_eq hreached 1 (clock 0)]
    refine ⟨_, _, whole 0, _, rfl, hwhole 0, List.prefix_rfl,
      .cons after _ 1 (clock 0) [] (fun _ => rfl) (.nil _), hreached, List.cons_ne_nil _ _, ?_⟩
    rw [if_pos hend]
    simp only [ownPage, List.length_take]
    omega
  · have hmore : ¬ (after : ℤ) = log.length := by exact_mod_cast hend
    rw [if_neg hmore]
    obtain ⟨pages, hloop, hpages⟩ := exportLoop_eq (fun page =>
        ⟨(NodeState.run P identity (actions ++ later page)).db, clock page⟩)
      (fun page => ⟨whole page, hbegins page, hwhole page⟩) 0 hafter
    refine ⟨pages, _, log, log.length, hloop, hlog, hbegins 0, hpages, hafter, ?_, ?_⟩
    · rintro rfl
      cases hpages
      exact hend rfl
    · rw [if_neg hend]

end

namespace Sample

open TextBytes CursorText

/-- A text without control characters. -/
def lineText (value : Json) : String :=
  ofChars ('x' :: (utf8 (valueText value)).flatMap HexText.bytePair)

def parseLine (text : String) : Option Json :=
  if (utf8 text).head? = some 120 then
    ((HexText.decodeChars (chars text).tail).map ofBytes).bind parseValue
  else parseValue text

theorem parseLine_lineText (value : Json) : parseLine (lineText value) = some value := by
  have hhead : (utf8 (lineText value)).head? = some 120 := by
    rw [lineText, ofChars_eq, utf8_ofList_cons]
    rfl
  unfold parseLine
  rw [if_pos hhead, lineText, ofChars_eq, chars_eq, String.toList_ofList, List.tail_cons,
    HexText.decodeChars_bytes, Option.map_some, Option.bind_some, ofBytes_utf8,
    parseValue_valueText]

theorem parseLine_valueText (value : Json) : parseLine (valueText value) = some value := by
  have hhead : (utf8 (valueText value)).head? ≠ some 120 := by
    rw [valueText, utf8_textOf]
    intro hhex
    cases value with
    | null | string _ | array _ | object _ =>
        exact absurd (Option.some.inj hhex) (by decide)
    | bool b => cases b <;> exact absurd (Option.some.inj hhex) (by decide)
    | number n => cases n <;> exact absurd (Option.some.inj hhex) (by decide)
  unfold parseLine
  rw [if_neg hhead, parseValue_valueText]

theorem mem_chars_lineText {value : Json} {c : Char} (h : c ∈ chars (lineText value)) :
    c = 'x' ∨ ∃ digit < 16, c = HexText.digit digit := by
  rw [lineText, ofChars_eq, chars_eq, String.toList_ofList, List.mem_cons] at h
  rw [← chars_encode] at h
  exact h.imp id mem_chars_encode

theorem ne_of_mem_chars_lineText {value : Json} {c : Char} (h : c ∈ chars (lineText value)) :
    c ≠ '\n' ∧ c ≠ '\r' := by
  rcases mem_chars_lineText h with rfl | ⟨digit, hdigit, rfl⟩
  · decide
  · interval_cases digit <;> decide

theorem trim_ne_of_first {text : String} {first : Char} {rest : List Char}
    (htext : chars text = first :: rest) (hfirst : isWhitespace first = false) :
    trim text ≠ "" := by
  intro htrim
  have hnil := congrArg String.toList htrim
  rw [trim, htext, List.dropWhile_cons_of_neg (by simp [hfirst]), String.toList_ofList,
    String.toList_empty, List.reverse_eq_nil_iff, List.dropWhile_eq_nil_iff] at hnil
  have hspace := hnil first (List.mem_reverse.mpr List.mem_cons_self)
  rw [hfirst] at hspace
  cases hspace

/-- The sample library with an ordinary text which is one line. -/
def lineLibrary : Primitives :=
  { library with
    toText := lineText
    parse := parseLine
    parse_jcs := fun value => parseLine_valueText (value.mapNumbers canonNumber)
    parse_toText := parseLine_lineText }

theorem oneLine_lineLibrary (bundle : FederationBundle) : bundle.OneLine lineLibrary where
  newline := fun hmem => (ne_of_mem_chars_lineText hmem).1 rfl
  carriageReturn := fun hlast => (ne_of_mem_chars_lineText (List.mem_of_getLast? hlast)).2 rfl
  nonblank := by
    have htext : chars (exportLine lineLibrary bundle) =
        'x' :: (utf8 (valueText (bundle.toJson lineLibrary))).flatMap HexText.bytePair := by
      change chars (lineText _) = _
      rw [lineText, ofChars_eq, chars_eq, String.toList_ofList]
    exact trim_ne_of_first htext (by decide)

def lineNode : NodeIdentity lineLibrary := .ofSecret lineLibrary [1]

/-- The registration of a lineage, in one critical section after the other. -/
def lineRegistration (secret : Bytes) (nonce : String) : List Action :=
  let draft : LineageRegistration := ⟨protocolVersion, "Line",
    lineLibrary.encodeBase64 (lineLibrary.publicKey secret), 0, nonce, ""⟩
  atOnce (.registerLineage { draft with
    signature := lineLibrary.signObject secret lineageDomain (draft.toJson lineLibrary) }) 0

def lineRun : List Action :=
  lineRegistration [2] "0123456789abcdef" ++ lineRegistration [3] "fedcba9876543210"

/-- The export after the first event, with a third event meanwhile. -/
def lineExport : List FederationBundle × Except ExportError Unit :=
  exportCommand lineLibrary lineNode 1 (NodeState.run lineLibrary lineNode lineRun).db
    fun _ => ⟨(NodeState.run lineLibrary lineNode (lineRun ++
      lineRegistration [4] "0123456789abcdef")).db, 0⟩

instance lineExport_fits : Fact (
    (NodeState.run lineLibrary lineNode lineRun).db.head = 2 ∧
    (NodeState.run lineLibrary lineNode (lineRun ++
      lineRegistration [4] "0123456789abcdef")).db.head = 3 ∧
    ∀ page ∈ lineExport.1, page.Fits lineLibrary) :=
  ⟨by decide +kernel⟩

end Sample

end Commonwake
