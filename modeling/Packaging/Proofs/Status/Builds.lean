import Packaging.Proofs.Status.Pages

/-! The latest build of each tag. A list of builds gives every tag that it names the first build
with that tag, which is the latest one when the newest builds come first.
-/

namespace Packaging

/-- Points in the order of time. All of a leap second is before the next second. -/
instance : LE Timestamp where
  le first second :=
    first.seconds < second.seconds
    ∨ first.seconds = second.seconds ∧ first.nanoseconds ≤ second.nanoseconds

instance (first second : Timestamp) : Decidable (first ≤ second) :=
  inferInstanceAs (Decidable (_ ∨ _))

namespace Status

-----------------------------------------------------------------------------------------
-- Tags
-----------------------------------------------------------------------------------------

/-- A tag stands behind the last dot of a text. -/
def Tagged (text tag : String) : Prop :=
  ∃ front, text = front ++ "." ++ tag ∧ '.' ∉ tag.toList

theorem distTag_eq_some_iff {build : Build} {tag : String}
    : build.distTag = some tag ↔ Tagged build.nvr tag := by
  rw [Build.distTag, Option.map_eq_some_iff]
  constructor
  · rintro ⟨rest, found, rfl⟩
    obtain ⟨front, split, plain⟩ := (afterLastDot_eq_some_iff _ _).mp found
    refine ⟨String.ofList front, ?_, by simpa using plain⟩
    rw [← String.toList_inj, split]
    simp
  · rintro ⟨front, split, plain⟩
    refine ⟨tag.toList, (afterLastDot_eq_some_iff _ _).mpr ⟨front.toList, ?_, plain⟩, by simp⟩
    rw [split]
    simp

theorem distTag_eq_none_iff {build : Build}
    : build.distTag = none ↔ '.' ∉ build.nvr.toList := by
  rw [Build.distTag, Option.map_eq_none_iff, afterLastDot_eq_none_iff]

-----------------------------------------------------------------------------------------
-- The first build of a tag
-----------------------------------------------------------------------------------------

/-- A build has a tag that no build before it has. -/
structure FirstTagged (builds : List Build) (tag : String) (build : Build) : Prop where
  tagged : Tagged build.nvr tag
  first
    : ∃ before after,
        builds = before ++ build :: after ∧ ∀ earlier ∈ before, ¬ Tagged earlier.nvr tag

variable {builds : List Build} {tag : String}

theorem find?_distTag_eq_some_iff {build : Build}
    : builds.find? (·.distTag = some tag) = some build ↔ FirstTagged builds tag build := by
  rw [List.find?_eq_some_iff_append]
  simp only [decide_eq_true_iff, distTag_eq_some_iff, Bool.not_eq_true', decide_eq_false_iff_not]
  exact ⟨fun ⟨tagged, first⟩ => ⟨tagged, first⟩, fun ⟨tagged, first⟩ => ⟨tagged, first⟩⟩

theorem getElem?_latestBuilds_eq_some_iff {nvr : String}
    : (latestBuilds builds)[tag]? = some nvr
      ↔ ∃ build, FirstTagged builds tag build ∧ build.nvr = nvr := by
  simp only [getElem?_latestBuilds, Option.map_eq_some_iff, find?_distTag_eq_some_iff]

theorem mem_latestBuilds_iff
    : tag ∈ latestBuilds builds ↔ ∃ build ∈ builds, Tagged build.nvr tag := by
  rw [Std.TreeMap.mem_iff_isSome_getElem?, getElem?_latestBuilds, Option.isSome_map,
    List.find?_isSome]
  simp only [decide_eq_true_iff, distTag_eq_some_iff]

/-- Of two lists together, the first one decides about all tags that it has. -/
theorem getElem?_latestBuilds_append (first second : List Build) (tag : String)
    : (latestBuilds (first ++ second))[tag]?
      = (latestBuilds first)[tag]?.or (latestBuilds second)[tag]? := by
  simp only [getElem?_latestBuilds, List.find?_append, Option.map_or]

/-- Builds without a dot change nothing. -/
theorem latestBuilds_filter (builds : List Build)
    : latestBuilds (builds.filter fun build => '.' ∈ build.nvr.toList) = latestBuilds builds := by
  have idle (latest : TextMap) (build : Build)
      : (if '.' ∈ build.nvr.toList then addBuild latest build else latest)
        = addBuild latest build := by
    split
    · rfl
    · next plain => rw [addBuild, distTag_eq_none_iff.mpr plain]
  rw [latestBuilds, List.foldl_filter]
  simp only [decide_eq_true_iff, idle]
  rfl

/-- Builds stand in order: none was completed after one before it. -/
def NewestFirst (builds : List Build) : Prop :=
  builds.Pairwise fun first second => second.completed ≤ first.completed

/-- Where the newest builds come first, the first build of a tag is the latest one. -/
theorem FirstTagged.latest {build : Build} (found : FirstTagged builds tag build)
    (ordered : NewestFirst builds) {other : Build} (member : other ∈ builds)
    (tagged : Tagged other.nvr tag)
    : other.completed ≤ build.completed := by
  obtain ⟨_, before, after, rfl, none⟩ := found
  rcases List.mem_append.mp member with earlier | later
  · exact absurd tagged (none other earlier)
  · rcases List.mem_cons.mp later with rfl | behind
    · exact .inr ⟨rfl, Nat.le_refl _⟩
    · exact List.rel_of_pairwise_cons (List.pairwise_append.mp ordered).2.1 behind

-----------------------------------------------------------------------------------------
-- The inquiry
-----------------------------------------------------------------------------------------

variable {status : Status} {name : String}

/-- With a name for the package, its completed builds are asked for once. -/
theorem builds_of_named (named : status.attributes.downstreamName = some name) (given : name ≠ "")
    : status.builds
      = ⟨[.asked (.completedBuilds name buildWindow)],
          (status.services.completedBuilds name buildWindow).map latestBuilds⟩ := by
  rw [Status.builds, Traced.silent_bind (packageName_of_named named given), Traced.bind_pure]
  rfl

/-- Of a package with a name, the completed builds of the usual time are asked for, and they give a
map. Its keys are the tags that some build has, and each tag has the text of the first build with
it, which ends with a dot and that tag. When the newest builds come first, no build with that tag
was completed later. Of two lists together the map is that of the first one, and of the second one
where the first has nothing, and builds without a dot change nothing.
-/
theorem builds_of_completed (named : status.attributes.downstreamName = some name)
    (given : name ≠ "") {completed : List Build}
    (answered : status.services.completedBuilds name buildWindow = .ok completed)
    : status.builds
        = ⟨[.asked (.completedBuilds name buildWindow)], .ok (latestBuilds completed)⟩
      ∧ (∀ tag, tag ∈ latestBuilds completed ↔ ∃ build ∈ completed, Tagged build.nvr tag)
      ∧ (∀ tag nvr,
          (latestBuilds completed)[tag]? = some nvr
          ↔ ∃ build, FirstTagged completed tag build ∧ build.nvr = nvr)
      ∧ (∀ tag nvr,
          (latestBuilds completed)[tag]? = some nvr → ∃ front, nvr = front ++ "." ++ tag)
      ∧ (NewestFirst completed
        → ∀ tag build,
            FirstTagged completed tag build
            → ∀ other ∈ completed,
                Tagged other.nvr tag → other.completed ≤ build.completed)
      ∧ (∀ first second,
          completed = first ++ second
          → ∀ tag : String,
              (latestBuilds completed)[tag]?
                = (latestBuilds first)[tag]?.or (latestBuilds second)[tag]?)
      ∧ latestBuilds (completed.filter fun build => '.' ∈ build.nvr.toList)
          = latestBuilds completed := by
  refine ⟨?_, fun tag => mem_latestBuilds_iff, fun tag nvr => getElem?_latestBuilds_eq_some_iff,
    ?_, ?_, ?_, latestBuilds_filter completed⟩
  · rw [builds_of_named named given, answered]
    rfl
  · intro tag nvr found
    obtain ⟨build, ⟨⟨front, split, _⟩, _⟩, rfl⟩ := getElem?_latestBuilds_eq_some_iff.mp found
    exact ⟨front, split⟩
  · intro ordered tag build found other member tagged
    exact found.latest ordered member tagged
  · rintro first second rfl tag
    exact getElem?_latestBuilds_append first second tag

/-- Services that know about completed builds alone. -/
def Services.ofBuilds (completed : List Build) : Services where
  pullRequests := .ok []
  branches := .ok []
  specVersion _ := .ok none
  releases := none
  completedBuilds _ _ := .ok completed
  updates _ _ := .ok ⟨[], 0⟩
  coprBuilds _ := .ok []

/-- Builds with several dots, with a dot at the end, without a dot, and with a tag that an earlier
one has already.
-/
theorem builds_of_completed_repeated
    : let newer : Build := ⟨"ogr-0.6.0-1.fc29", ⟨40, 0⟩⟩
      let older : Build := ⟨"ogr-0.5.0-1.fc29", ⟨20, 999⟩⟩
      let completed : List Build :=
        [newer, ⟨"ogr-0.6.0-1.", ⟨30, 5⟩⟩, ⟨"no-dist-tag", ⟨30, 5⟩⟩, older]
      let status : Status := ⟨{ downstreamName := some "ogr" }, .ofBuilds completed⟩
      ∃ latest : TextMap,
        status.builds = ⟨[.asked (.completedBuilds "ogr" 365)], .ok latest⟩
        ∧ latest["fc29"]? = some "ogr-0.6.0-1.fc29"
        ∧ latest[""]? = some "ogr-0.6.0-1."
        ∧ "no-dist-tag" ∉ latest
        ∧ NewestFirst completed
        ∧ older.completed ≤ newer.completed := by
  intro newer older completed status
  have first (tag : String) (build : Build)
      (found : completed.find? (·.distTag = some tag) = some build)
      : FirstTagged completed tag build :=
    find?_distTag_eq_some_iff.mp found
  have newest : FirstTagged completed "fc29" newer := first "fc29" newer (by decide)
  have ordered : NewestFirst completed := by
    unfold NewestFirst
    decide
  obtain ⟨asked, keys, values, _, latest, _⟩ :=
    @builds_of_completed status "ogr" rfl (by decide) completed rfl
  refine ⟨_, asked, ?_, ?_, ?_, ordered, ?_⟩
  · exact (values _ _).mpr ⟨newer, newest, rfl⟩
  · exact (values _ _).mpr ⟨⟨"ogr-0.6.0-1.", ⟨30, 5⟩⟩, first "" _ (by decide), rfl⟩
  · rw [keys]
    rintro ⟨build, member, tagged⟩
    have free : ∀ build ∈ completed, build.distTag ≠ some "no-dist-tag" := by decide
    exact free build member (distTag_eq_some_iff.mpr tagged)
  · exact latest ordered "fc29" newer newest older (by decide)
      (distTag_eq_some_iff.mp (by decide))

end Status

end Packaging
