import Vitae.Proofs.Files.Disk

/-!
# One source on every way

A profile is typeset for a call, while it is watched, and for users of the library who want the source alone.
All three give one source, and it is what a job writes or posts. A text that is fed is typeset like a file of
that text, unless the name of the file tells another format.
-/

namespace Vitae

open BuildService

variable {σ ι : Type} {host : Host (StateM σ)} {transport : Transport (StateM σ)} {s : Settings} {p : Path}
  {t u : σ}

/-! ## Sources -/

theorem run_renderProfile (host : Host (StateM σ)) (l : Layout) (p : Path) (t : σ) :
    (renderProfile host p l.id) t = match (Profile.load host p) t with
      | (.error e, u) => (.error (.profile e), u)
      | (.ok d, u) => (.ok (l.render d), u) := by
  unfold renderProfile
  rw [Layout.ofId_id]
  dsimp only
  rw [run_bind, run_adapt]
  obtain ⟨r, u⟩ := (Profile.load host p) t
  cases r <;> rfl

theorem typeset_id (l : Layout) (d : Document) : typeset l.id d = .ok (String.ofList (l.render d)) := by
  rw [typeset, Layout.ofId_id]
  rfl

theorem detect_of_name {text : List Char}
    (name : ∀ e, p.extension? = some e → e.map Char.toLower ≠ "json".toList) :
    Profile.Format.detect (some p) text = Profile.Format.detect none text := by
  have plain : Profile.Format.isNamedJson p = false := by
    unfold Profile.Format.isNamedJson
    split
    · case h_1 e found => exact beq_false_of_ne (name e found)
    · rfl
  rw [Profile.Format.detect, Profile.Format.detect, Option.any_some, plain]
  rfl

theorem load_eq_document {text : String}
    (name : ∀ e, p.extension? = some e → e.map Char.toLower ≠ "json".toList)
    (read : (host.readText p) t = (.ok text, u)) :
    (Profile.load host p) t = (Job.document host (.text text.toList)) u := by
  rw [run_load, read]
  dsimp only
  rw [detect_of_name name]
  rfl

/-! ## Posts -/

/-- What has been posted to services is on record: every request is, and the host posts nothing. -/
structure Recorded (host : Host (StateM σ)) (transport : Transport (StateM σ))
    (posts : σ → List (String × Json)) : Prop where
  keeps : host.Keeps fun t u => posts u = posts t
  writes : ∀ p content t, posts (host.writeFile p content t).2 = posts t
  sends : ∀ endpoint request t, posts (transport endpoint request t).2 = posts t ++ [(endpoint, request)]

def Json.member? (name : String) : Json → Option Json
  | .object members =>
    match members.filter (·.1 == name.toList) with
    | [m] => some m.2
    | _ => none
  | _ => none

def Json.item? (i : Nat) : Json → Option Json
  | .array items => items[i]?
  | _ => none

/-- The request asks for a PDF of the source, made by pdflatex of one file that holds it. -/
structure BuildService.Asks (source : Tex) (r : Json) : Prop where
  compiler : r.member? "compiler" = some (.string "pdflatex".toList)
  main : ((r.member? "resources").bind (Json.item? 0)).bind (Json.member? "main") = some (.bool true)
  content : ((r.member? "resources").bind (Json.item? 0)).bind (Json.member? "content") = some (.string source)
  alone : (r.member? "resources").bind (Json.item? 1) = none

theorem asks_request (source : Tex) : Asks source (request source) :=
  ⟨rfl, rfl, rfl, rfl⟩

/-- What is posted for a source: nothing, if the source itself is asked for. -/
def Settings.Posts (s : Settings) (source : Tex) (posted : List (String × Json)) : Prop :=
  if s.texOnly then posted = [] else ∃ r, posted = [(s.endpoint, r)] ∧ Asks source r

namespace Recorded

variable {posts : σ → List (String × Json)}

theorem content (recorded : Recorded host transport posts) {source : Tex}
    {r : Except BuildService.Error ByteArray} (h : (Job.content transport s source) t = (r, u)) :
    ∃ posted, posts u = posts t ++ posted ∧ s.Posts source posted := by
  cases tex : s.texOnly with
  | true =>
    rw [run_content_tex _ _ _ tex] at h
    cases h
    exact ⟨[], (List.append_nil _).symm, by rw [Settings.Posts, if_pos tex]⟩
  | false =>
    have sent := recorded.sends s.endpoint (request source) t
    have one : s.Posts source [(s.endpoint, request source)] := by
      rw [Settings.Posts, tex, if_neg Bool.false_ne_true]
      exact ⟨_, rfl, asks_request source⟩
    rw [content_pdf _ _ tex, run_build] at h
    refine ⟨_, ?_, one⟩
    generalize transport s.endpoint (request source) t = result at h sent
    obtain ⟨reply | reply, v⟩ := result <;> cases h <;> exact sent

theorem writeOutput (recorded : Recorded host transport posts) {source : Tex} {r : Except Job.Error Nat}
    (h : (Job.writeOutput host transport s p source) t = (r, u)) :
    ∃ posted, posts u = posts t ++ posted ∧ s.Posts source posted := by
  rw [run_writeOutput] at h
  split at h
  · case h_1 failed =>
    cases h
    exact recorded.content failed
  · case h_2 bytes v ready =>
    have written := recorded.writes p bytes v
    obtain ⟨posted, had, sent⟩ := recorded.content ready
    rw [had] at written
    refine ⟨posted, ?_, sent⟩
    generalize host.writeFile p bytes v = result at h written
    obtain ⟨cause | _, x⟩ := result <;> cases h <;> exact written

theorem run (recorded : Recorded host transport posts) {r : Except Job.Error Job.Written}
    (h : (Job.run host transport s (.file p)) t = (r, u)) :
    (posts u = posts t ∧ ∃ e, r = .error e) ∨
      ∃ source v posted, (renderProfile host p s.layout.id) t = (.ok source, v) ∧
        posts u = posts t ++ posted ∧ s.Posts source posted := by
  have loaded := recorded.keeps.document (.file p) t
  rw [run_run] at h
  split at h
  · case h_1 failed =>
    cases h
    rw [failed] at loaded
    exact .inl ⟨loaded, _, rfl⟩
  · case h_2 d v read =>
    rw [read] at loaded
    have made := recorded.keeps.makeRoom (Job.output s (.file p)) v
    split at h
    · case h_1 failed =>
      cases h
      rw [failed] at made
      exact .inl ⟨made.trans loaded, _, rfl⟩
    · case h_2 x room =>
      rw [room] at made
      have rendered : (renderProfile host p s.layout.id) t = (.ok (s.layout.render d), v) := by
        have load : (Profile.load host p) t = (.ok d, v) := read
        rw [run_renderProfile, load]
      have last : ∃ posted, posts u = posts x ++ posted ∧ s.Posts (s.layout.render d) posted := by
        split at h
        · case h_1 failed =>
          cases h
          exact recorded.writeOutput failed
        · case h_2 done =>
          cases h
          exact recorded.writeOutput done
      obtain ⟨posted, sent, asks⟩ := last
      rw [made, loaded] at sent
      exact .inr ⟨_, _, posted, rendered, sent, asks⟩

end Recorded

/-! ## A disk with a record -/

def alongside {τ α : Type} (x : StateM σ α) : StateM (σ × τ) α :=
  fun t => ((x t.1).1, ((x t.1).2, t.2))

def Disk.recording (disk : Disk σ ι) : Disk (σ × List (String × Json)) ι where
  host :=
    { readFile := fun p => alongside (disk.host.readFile p)
      writeFile := fun p content => alongside (disk.host.writeFile p content)
      makeDirectory := fun p => alongside (disk.host.makeDirectory p)
      isDirectory := fun p => alongside (disk.host.isDirectory p) }
  entries t := disk.entries t.1
  place t := disk.place t.1
  reads p t := disk.reads p t.1
  looks p t := disk.looks p t.1
  makes p t := disk.makes p t.1
  refuses p content t e u h := by
    obtain ⟨refused, rfl⟩ := Prod.mk.inj h
    exact disk.refuses p content t.1 e _ (Prod.ext refused rfl)
  writes p content t u h := by
    obtain ⟨written, rfl⟩ := Prod.mk.inj h
    exact disk.writes p content t.1 _ (Prod.ext written rfl)

def recording (transport : Transport (StateM σ)) : Transport (StateM (σ × List (String × Json))) :=
  fun endpoint request t =>
    ((transport endpoint request t.1).1, ((transport endpoint request t.1).2, t.2 ++ [(endpoint, request)]))

theorem recorded_recording (disk : Disk σ ι) (transport : Transport (StateM σ)) :
    Recorded disk.recording.host (recording transport) Prod.snd where
  keeps := ⟨fun _ => rfl, fun first second => second.trans first, fun _ _ => rfl, fun _ _ => rfl, fun _ _ => rfl⟩
  writes _ _ _ := rfl
  sends _ _ _ := rfl

/-! ## Agreement -/

/-- Over every disk: a job for a file and the same job while the file is watched have one result, and leave
one state. What they write, or post as the content of the one file in the request, is the source that the
library gives for the file, and that is the file's document, typeset. A text that is fed gives the source that
it gives as a file which is not named as JSON. -/
theorem entry_points_agree {disk : Disk σ ι} {posts : σ → List (String × Json)}
    (spares : disk.Spares transport) (recorded : Recorded disk.host transport posts) (s : Settings) (p : Path)
    (t : σ) :
    (Watch.rebuild disk.host transport s p) t =
      (((Job.run disk.host transport s (.file p)) t).1.map Job.Written.path,
        ((Job.run disk.host transport s (.file p)) t).2) ∧
    ((renderProfile disk.host p s.layout.id) t =
      match (Profile.load disk.host p) t with
      | (.error e, u) => (.error (.profile e), u)
      | (.ok d, u) => (((typeset s.layout.id d).map String.toList).mapError .layout, u)) ∧
    (match (Job.run disk.host transport s (.file p)) t with
      | (.error _, u) => posts u = posts t ∨
          ∃ source v posted, (renderProfile disk.host p s.layout.id) t = (.ok source, v) ∧
            posts u = posts t ++ posted ∧ s.Posts source posted
      | (.ok w, u) => w.path = outputPath (some p) s.output s.multiple s.extension ∧
          ∃ source v posted, (renderProfile disk.host p s.layout.id) t = (.ok source, v) ∧
            posts u = posts t ++ posted ∧ s.Posts source posted ∧
            (s.texOnly = true → disk.Fills t u w.path (String.ofList source).toUTF8)) ∧
    (∀ text u, (disk.host.readText p) t = (.ok text, u) →
      (∀ e, p.extension? = some e → e.map Char.toLower ≠ "json".toList) →
      (s.layout.render <$> Job.document disk.host (.text text.toList)) u =
        (s.layout.render <$> Profile.load disk.host p) t) := by
  refine ⟨?_, ?_, ?_, fun text u read name => ?_⟩
  · rw [Watch.rebuild_eq, run_map]
  · simp only [run_renderProfile, typeset_id, Except.map, Except.mapError, String.toList_ofList]
  · split
    · case h_1 e u failed =>
      obtain ⟨none, -⟩ | posted := recorded.run failed
      · exact .inl none
      · exact .inr posted
    · case h_2 w u ran =>
      obtain ⟨path, d, loaded, room, bytes, read, -, answers, fills, -⟩ := Disk.run_ok spares ran
      obtain ⟨-, e, failed⟩ | ⟨source, v, posted, rendered, sent, asks⟩ := recorded.run ran
      · cases failed
      · refine ⟨path, source, v, posted, rendered, sent, asks, fun tex => ?_⟩
        have load : (Profile.load disk.host p) t = (.ok d, loaded) := read
        rw [run_renderProfile, load] at rendered
        cases rendered
        rw [Disk.Answers, if_pos tex] at answers
        exact answers ▸ fills
  · rw [run_map, run_map, load_eq_document name read]

def oneProfile : FileTree where
  entries := [(["cv.yml".toList], .file "\x7b\"name\":\"A\"\x7d".toUTF8)]
  current := []

def runOne (texOnly : Bool) :
    Except Job.Error Job.Written × FileTree × List (String × Json) :=
  (Job.run FileTree.disk.recording.host (recording .down) { texOnly } (.file (.ofString "cv.yml")))
    (oneProfile, [])

theorem entry_points_agree_offline :
    (∃ source v r, (renderProfile FileTree.disk.recording.host (.ofString "cv.yml") "classic") (oneProfile, []) =
        (.ok source, v) ∧ (runOne false).2.2 = [(defaultEndpoint, r)] ∧
      ((r.member? "resources").bind (Json.item? 0)).bind (Json.member? "content") = some (.string source)) ∧
    (∃ source v, (renderProfile FileTree.disk.recording.host (.ofString "cv.yml") "classic") (oneProfile, []) =
        (.ok source, v) ∧
      FileTree.disk.recording.Fills (oneProfile, []) (runOne true).2 (.ofString "cv.tex")
        (String.ofList source).toUTF8) ∧
    (Layout.classic.render <$> Job.document FileTree.disk.recording.host
        (.text "\x7b\"name\":\"A\"\x7d".toList)) (oneProfile, []) =
      (Layout.classic.render <$> Profile.load FileTree.disk.recording.host (.ofString "cv.yml"))
        (oneProfile, []) := by
  have spares : FileTree.disk.recording.Spares (recording .down) := fun _ _ _ => rfl
  have recorded := recorded_recording FileTree.disk .down
  obtain ⟨-, -, asked, fed⟩ := entry_points_agree spares recorded {} (.ofString "cv.yml") (oneProfile, [])
  obtain ⟨-, -, written, -⟩ :=
    entry_points_agree spares recorded { texOnly := true } (.ofString "cv.yml") (oneProfile, [])
  have posted : (runOne false).2.2.length = 1 := by decide +kernel
  have done : (runOne true).1.toOption.map Job.Written.path = some (.ofString "cv.tex") := by decide +kernel
  refine ⟨?_, ?_, fed _ _ rfl (by decide)⟩
  · have ran : (Job.run FileTree.disk.recording.host (recording .down) {} (.file (.ofString "cv.yml")))
        (oneProfile, []) = runOne false := rfl
    rw [ran] at asked
    generalize runOne false = result at asked posted ⊢
    obtain ⟨e | w, u⟩ := result
    · obtain none | ⟨source, v, _, rendered, sent, r, rfl, asks⟩ := asked
      · rw [none] at posted
        cases posted
      · exact ⟨source, v, r, rendered, sent, asks.content⟩
    · obtain ⟨-, source, v, _, rendered, sent, ⟨r, rfl, asks⟩, -⟩ := asked
      exact ⟨source, v, r, rendered, sent, asks.content⟩
  · have ran : (Job.run FileTree.disk.recording.host (recording .down) { texOnly := true }
        (.file (.ofString "cv.yml"))) (oneProfile, []) = runOne true := rfl
    rw [ran] at written
    generalize runOne true = result at written done ⊢
    obtain ⟨e | w, u⟩ := result
    · cases done
    · obtain ⟨-, source, v, _, rendered, -, -, fills⟩ := written
      have path : w.path = .ofString "cv.tex" := Option.some.inj done
      exact ⟨source, v, rendered, path ▸ fills rfl⟩

end Vitae
