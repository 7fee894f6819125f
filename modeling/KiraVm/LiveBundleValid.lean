import KiraVm.LiveBundle

/-!
# Valid bundles

The decoder accepts exactly the bytes of the manifests that keep its rules, so whether a
bundle can be written and read back is whether the names in its manifest keep them.
-/

namespace KiraVm

namespace KiraLive

open ByteReader Reader

/-! ## The manifest's bytes -/

theorem readManifestString_codes :
    Codes readManifestString (fun text => (textBytes text).length < 2 ^ 32) writeString := by
  intro cursor text after
  simp only [readManifestString, bind_ok_iff, okOr_ok_iff, shortBytes_codes _ _ _,
    fromUTF8_eq_some_iff, writeString]
  constructor
  · rintro ⟨_, _, ⟨fits, spans⟩, rfl, rfl⟩
    exact ⟨fits, spans⟩
  · rintro ⟨fits, spans⟩
    exact ⟨_, _, ⟨fits, spans⟩, rfl, rfl⟩

theorem readHash_ok_iff {hash : ContentHash} {cursor after : Cursor} :
    readHash cursor = .ok (hash, after) ↔ Spans cursor hash.val after := by
  simp only [readHash, takeManifest, bind_ok_iff, take_ok_iff]
  constructor
  · rintro ⟨digest, middle, ⟨sized, spans⟩, answered⟩
    rw [dif_pos sized] at answered
    rcases pure_ok_iff.mp answered with ⟨rfl, rfl⟩
    exact spans
  · intro spans
    refine ⟨hash.val, after, ⟨hash.property, spans⟩, ?_⟩
    rw [dif_pos hash.property]
    rfl

variable {byte : UInt8}

theorem kind_iff {kind : PayloadKind} :
    PayloadKind.fromByte byte = some kind ↔ kind.asByte = byte := by
  constructor
  · intro found
    unfold PayloadKind.fromByte at found
    split at found <;> cases found <;> rfl
  · rintro rfl
    cases kind <;> rfl

theorem runner_iff {runner : RunnerId} :
    RunnerId.all[byte.toNat]? = some runner ↔ UInt8.ofNat runner.index = byte := by
  apply @tableByte_iff _ RunnerId.all fun runner => UInt8.ofNat runner.index
  · decide
  · decide
  · intro runner
    cases runner <;> decide

theorem profile_iff {profile : BuildProfile} :
    BuildProfile.all[byte.toNat]? = some profile ↔ UInt8.ofNat profile.index = byte := by
  apply @tableByte_iff _ BuildProfile.all fun profile => UInt8.ofNat profile.index
  · decide
  · decide
  · intro profile
    cases profile <;> decide

/-- Payloads whose names the decoder accepts after those it has seen. -/
structure Listed (count : Nat) (seen : List String) (payloads : List PayloadEntry) : Prop where
  length : payloads.length = count
  plain : ∀ payload ∈ payloads, isPlainFileName payload.name = true
  short : ∀ payload ∈ payloads, (textBytes payload.name).length < 2 ^ 32
  distinct : (payloads.map PayloadEntry.name).Nodup
  unseen : ∀ payload ∈ payloads, payload.name ∉ seen

theorem listed_nil {count : Nat} {seen : List String} :
    Listed count seen [] ↔ count = 0 := by
  constructor
  · exact fun listed => listed.length.symm
  · intro empty
    exact ⟨empty.symm, by simp, by simp, by simp, by simp⟩

theorem listed_cons {count : Nat} {seen : List String} {payload : PayloadEntry}
    {payloads : List PayloadEntry} :
    Listed (count + 1) seen (payload :: payloads) ↔
      isPlainFileName payload.name = true ∧ (textBytes payload.name).length < 2 ^ 32 ∧
        payload.name ∉ seen ∧ Listed count (payload.name :: seen) payloads := by
  constructor
  · rintro ⟨length, plain, short, distinct, unseen⟩
    rw [List.map_cons, List.nodup_cons] at distinct
    refine ⟨plain _ List.mem_cons_self, short _ List.mem_cons_self, unseen _ List.mem_cons_self, ?_⟩
    refine
      { length := Nat.succ.inj length
        plain := fun other member => plain other (List.mem_cons_of_mem _ member)
        short := fun other member => short other (List.mem_cons_of_mem _ member)
        distinct := distinct.2
        unseen := ?_ }
    intro other member again
    rcases List.mem_cons.mp again with same | before
    · exact distinct.1 (List.mem_map.mpr ⟨other, member, same⟩)
    · exact unseen other (List.mem_cons_of_mem _ member) before
  · rintro ⟨plain, short, unseen, listed⟩
    refine
      { length := congrArg (· + 1) listed.length
        plain := ?_
        short := ?_
        distinct := ?_
        unseen := ?_ }
    · intro other member
      rcases List.mem_cons.mp member with same | later
      · rw [same]
        exact plain
      · exact listed.plain other later
    · intro other member
      rcases List.mem_cons.mp member with same | later
      · rw [same]
        exact short
      · exact listed.short other later
    · rw [List.map_cons, List.nodup_cons]
      refine ⟨?_, listed.distinct⟩
      intro again
      rcases List.mem_map.mp again with ⟨other, member, same⟩
      exact listed.unseen other member (List.mem_cons.mpr (Or.inl same))
    · intro other member
      rcases List.mem_cons.mp member with same | later
      · rw [same]
        exact unseen
      · exact fun before => listed.unseen other later (List.mem_cons_of_mem _ before)

theorem readPayloads_codes (count : Nat) (seen : List String) :
    Codes (readPayloads count seen) (Listed count seen) fun payloads =>
      payloads.flatMap writePayload := by
  induction count generalizing seen with
  | zero =>
    intro cursor payloads after
    simp only [readPayloads, pure_ok_iff]
    constructor
    · rintro ⟨rfl, rfl⟩
      exact ⟨listed_nil.mpr rfl, by simp⟩
    · rintro ⟨listed, spans⟩
      have empty : payloads = [] := List.length_eq_zero_iff.mp listed.length
      rw [empty] at spans ⊢
      exact ⟨rfl, spans_nil.mp spans⟩
  | succ count ih =>
    intro cursor payloads after
    simp only [readPayloads, bind_ok_iff, fail_ite_ok_iff, readManifestString_codes _ _ _,
      readManifestByte, byte_ok_iff, okOr_ok_iff, readHash_ok_iff, u64_ok_iff, pure_ok_iff,
      ih _ _ _ _]
    constructor
    · rintro ⟨name, named, ⟨short, nameSpans⟩, plain, unseen, kindRaw, kinded,
        kindSpans, kind, _, ⟨found, rfl⟩, hash, hashed, hashSpans, size, sized, sizeSpans,
        rest, _, ⟨listed, restSpans⟩, rfl, rfl⟩
      refine ⟨listed_cons.mpr ⟨by simpa using plain, short, unseen, listed⟩, ?_⟩
      rw [← kind_iff.mp found] at kindSpans
      rw [List.flatMap_cons, writePayload, List.append_assoc, spans_append]
      refine ⟨named, nameSpans, ?_⟩
      rw [List.cons_append, spans_cons]
      refine ⟨kinded, kindSpans, ?_⟩
      rw [List.append_assoc, spans_append]
      refine ⟨hashed, hashSpans, ?_⟩
      rw [spans_append]
      exact ⟨sized, sizeSpans, restSpans⟩
    · rintro ⟨listed, spans⟩
      cases payloads with
      | nil => cases listed.length
      | cons payload rest =>
        rcases listed_cons.mp listed with ⟨plain, short, unseen, listedRest⟩
        rw [List.flatMap_cons, writePayload, List.append_assoc, spans_append] at spans
        rcases spans with ⟨named, nameSpans, spans⟩
        rw [List.cons_append, spans_cons] at spans
        rcases spans with ⟨kinded, kindSpans, spans⟩
        rw [List.append_assoc, spans_append] at spans
        rcases spans with ⟨hashed, hashSpans, spans⟩
        rw [spans_append] at spans
        rcases spans with ⟨sized, sizeSpans, restSpans⟩
        exact ⟨payload.name, named, ⟨short, nameSpans⟩, by simpa using plain, unseen,
          payload.kind.asByte, kinded, kindSpans, payload.kind, kinded, ⟨kind_iff.mpr rfl, rfl⟩,
          payload.hash, hashed, hashSpans, payload.size, sized, sizeSpans, rest, after,
          ⟨listedRest, restSpans⟩, rfl, rfl⟩

/-- A manifest the decoder accepts. -/
structure Encodable (manifest : BundleManifest) : Prop where
  listed : Listed manifest.payloads.length [] manifest.payloads
  few : manifest.payloads.length < 2 ^ 32
  entry : manifest.entry.toNat < manifest.payloads.length

theorem readManifest_codes : Codes readManifest Encodable BundleManifest.toBytes := by
  intro cursor manifest after
  simp only [readManifest, takeManifest, readManifestByte, bind_ok_iff, take_ok_iff,
    fail_ite_ok_iff, byte_ok_iff, okOr_ok_iff, u32_ok_iff, readPayloads_codes _ _ _ _ _,
    pure_ok_iff, not_not, runner_iff, profile_iff]
  constructor
  · rintro ⟨_, opened, ⟨_, openSpans⟩, rfl, _, runnerRead, runnerSpans, runner, _, ⟨rfl, rfl⟩,
      _, profileRead, profileSpans, profile, _, ⟨rfl, rfl⟩, entry, entryRead, entrySpans,
      count, counted, countSpans, payloads, _, ⟨listed, payloadSpans⟩, some, inside, rfl, rfl⟩
    have small := count.toNat_lt
    have sameCount : UInt32.ofNat payloads.length = count := by
      rw [listed.length, UInt32.ofNat_toNat]
    rw [← listed.length] at small listed
    refine ⟨⟨listed, small, Nat.not_le.mp inside⟩, ?_⟩
    unfold BundleManifest.toBytes shortList
    rw [spans_append]
    refine ⟨opened, openSpans, ?_⟩
    rw [spans_cons]
    refine ⟨runnerRead, runnerSpans, ?_⟩
    rw [spans_cons]
    refine ⟨profileRead, profileSpans, ?_⟩
    rw [spans_append]
    refine ⟨entryRead, entrySpans, ?_⟩
    rw [spans_append, sameCount]
    exact ⟨_, countSpans, payloadSpans⟩
  · rintro ⟨encodable, spans⟩
    unfold BundleManifest.toBytes shortList at spans
    rw [spans_append] at spans
    rcases spans with ⟨opened, openSpans, spans⟩
    rw [spans_cons] at spans
    rcases spans with ⟨runnerRead, runnerSpans, spans⟩
    rw [spans_cons] at spans
    rcases spans with ⟨profileRead, profileSpans, spans⟩
    rw [spans_append] at spans
    rcases spans with ⟨entryRead, entrySpans, spans⟩
    rw [spans_append] at spans
    rcases spans with ⟨counted, countSpans, payloadSpans⟩
    have count := toNat_ofNat_of_short encodable.few
    have listed : Listed (UInt32.ofNat manifest.payloads.length).toNat [] manifest.payloads := by
      rw [count]
      exact encodable.listed
    have some : ¬ manifest.payloads.isEmpty = true := by
      intro empty
      have inside := encodable.entry
      rw [List.isEmpty_iff.mp empty] at inside
      cases inside
    exact ⟨bundleMagic, opened, ⟨rfl, openSpans⟩, rfl, _, runnerRead, runnerSpans, manifest.runner,
      _, ⟨rfl, rfl⟩, _, profileRead, profileSpans, manifest.profile, _, ⟨rfl, rfl⟩, manifest.entry,
      entryRead, entrySpans, _, counted, countSpans, manifest.payloads, after,
      ⟨listed, payloadSpans⟩, some, Nat.not_le.mpr encodable.entry, rfl, rfl⟩

theorem decoded_encodable {bytes : List UInt8} {manifest : BundleManifest}
    (decoded : BundleManifest.fromBytes bytes = .ok manifest) : Encodable manifest := by
  unfold BundleManifest.fromBytes at decoded
  cases read : readManifest ⟨0, bytes⟩ with
  | error error =>
    rw [read] at decoded
    cases decoded
  | ok answer =>
    rw [read] at decoded
    rcases answer with ⟨found, after⟩
    cases decoded
    exact ((readManifest_codes _ _ _).mp read).1

theorem decodes_iff (manifest : BundleManifest) :
    BundleManifest.fromBytes manifest.toBytes = .ok manifest ↔ Encodable manifest := by
  constructor
  · exact decoded_encodable
  · intro encodable
    have spans : Spans ⟨0, manifest.toBytes⟩ manifest.toBytes ⟨manifest.toBytes.length, []⟩ := by
      constructor
      · exact (List.append_nil _).symm
      · exact (Nat.zero_add _).symm
    unfold BundleManifest.fromBytes
    rw [(readManifest_codes _ _ _).mpr ⟨encodable, spans⟩]
    rfl

/-- Names the decoder accepts. -/
structure NamesEncodable (names : List String) : Prop where
  few : names.length < 2 ^ 32
  plain : ∀ name ∈ names, isPlainFileName name = true
  short : ∀ name ∈ names, (textBytes name).length < 2 ^ 32
  distinct : names.Nodup

theorem encodable_iff {manifest : BundleManifest}
    (inside : manifest.entry.toNat < manifest.payloads.length) :
    Encodable manifest ↔ NamesEncodable (manifest.payloads.map PayloadEntry.name) := by
  constructor
  · intro encodable
    refine
      { few := ?_
        plain := ?_
        short := ?_
        distinct := encodable.listed.distinct }
    · rw [List.length_map]
      exact encodable.few
    · intro name member
      rcases List.mem_map.mp member with ⟨payload, listed, rfl⟩
      exact encodable.listed.plain payload listed
    · intro name member
      rcases List.mem_map.mp member with ⟨payload, listed, rfl⟩
      exact encodable.listed.short payload listed
  · intro names
    have few := names.few
    rw [List.length_map] at few
    refine ⟨⟨rfl, ?_, ?_, names.distinct, fun _ _ => List.not_mem_nil⟩, few, inside⟩
    · exact fun payload listed => names.plain _ (List.mem_map_of_mem listed)
    · exact fun payload listed => names.short _ (List.mem_map_of_mem listed)

/-! ## Bundles -/

section Hashing

variable {contentHash : List UInt8 → ContentHash}

def Recorded (contentHash : List UInt8 → ContentHash) (entry : PayloadEntry)
    (bytes : List UInt8) : Prop :=
  UInt64.ofNat bytes.length = entry.size ∧ contentHash bytes = entry.hash

theorem verify_ok_iff {entry : PayloadEntry} {bytes : List UInt8} :
    verify contentHash entry bytes = .ok () ↔ Recorded contentHash entry bytes := by
  unfold verify Recorded
  by_cases sized : UInt64.ofNat bytes.length = entry.size
  · by_cases hashed : contentHash bytes = entry.hash
    · simp [sized, hashed]
    · simp [sized, hashed]
  · simp [sized]

structure Bundle.Valid (contentHash : List UInt8 → ContentHash) (bundle : Bundle) : Prop where
  plain : ∀ entry ∈ bundle.manifest.payloads, isPlainFileName entry.name = true
  distinct : (bundle.manifest.payloads.map PayloadEntry.name).Nodup
  entry : bundle.manifest.entry.toNat < bundle.manifest.payloads.length
  recorded : List.Forall₂ (Recorded contentHash) bundle.manifest.payloads bundle.payloads
  decodes : BundleManifest.fromBytes bundle.manifest.toBytes = .ok bundle.manifest

/-- Written to any directory, the bundle is what is read back. -/
def Bundle.RoundTrips (contentHash : List UInt8 → ContentHash) (bundle : Bundle) : Prop :=
  ∀ directory, Bundle.read contentHash (bundle.write directory) = .ok bundle

theorem payloadPath_injective {first second : String}
    (same : payloadPath first = payloadPath second) : first = second := by
  unfold payloadPath at same
  have lists := congrArg String.toList same
  rw [String.toList_append, String.toList_append, List.append_cancel_left_eq] at lists
  exact String.toList_inj.mp lists

theorem payloadPath_apart (name : String) : payloadPath name ≠ manifestFile := by
  intro same
  have lists := congrArg String.toList same
  rw [payloadPath, String.toList_append] at lists
  have firsts := congrArg List.head? lists
  simp [manifestFile] at firsts

def writeFiles (directory : Directory) (files : List (PayloadEntry × List UInt8)) : Directory :=
  files.foldl (fun directory file => directory.write (payloadPath file.1.name) file.2) directory

theorem writeFiles_other {files : List (PayloadEntry × List UInt8)} {name : String}
    (absent : ∀ file ∈ files, file.1.name ≠ name) (directory : Directory) :
    writeFiles directory files (payloadPath name) = directory (payloadPath name) := by
  induction files generalizing directory with
  | nil => rfl
  | cons file files ih =>
    have later := ih (fun other member => absent other (List.mem_cons_of_mem _ member))
      (directory.write (payloadPath file.1.name) file.2)
    rw [writeFiles, List.foldl_cons]
    rw [writeFiles] at later
    rw [later, Directory.write, if_neg]
    intro same
    exact absent file List.mem_cons_self (payloadPath_injective same).symm

theorem writeFiles_found {files : List (PayloadEntry × List UInt8)}
    (distinct : (files.map fun file => file.1.name).Nodup) (directory : Directory) :
    ∀ file ∈ files, writeFiles directory files (payloadPath file.1.name) = some file.2 := by
  induction files generalizing directory with
  | nil => exact fun _ member => absurd member List.not_mem_nil
  | cons first files ih =>
    rw [List.map_cons, List.nodup_cons] at distinct
    intro file member
    change writeFiles (directory.write (payloadPath first.1.name) first.2) files _ = _
    rcases List.mem_cons.mp member with same | later
    · rw [same, writeFiles_other]
      · exact if_pos rfl
      · intro other listed clash
        exact distinct.1 (List.mem_map.mpr ⟨other, listed, clash⟩)
    · exact ih distinct.2 _ file later

variable {directory : Directory} {entries : List PayloadEntry} {bundle : Bundle}

theorem readFiles_ok {payloads : List (List UInt8)}
    (recorded : List.Forall₂ (Recorded contentHash) entries payloads)
    (found : ∀ file ∈ entries.zip payloads, directory (payloadPath file.1.name) = some file.2) :
    readFiles contentHash directory entries = .ok payloads := by
  induction recorded with
  | nil => rfl
  | @cons entry bytes entries payloads first rest ih =>
    have here := found (entry, bytes) List.mem_cons_self
    have others := ih fun file member => found file (List.mem_cons_of_mem _ member)
    rw [readFiles, here]
    dsimp only
    rw [verify_ok_iff.mpr first, others]
    rfl

theorem bundle_sound_iff (inside : bundle.manifest.entry.toNat < bundle.manifest.payloads.length)
    (recorded : List.Forall₂ (Recorded contentHash) bundle.manifest.payloads bundle.payloads) :
    bundle.Valid contentHash ∧ bundle.RoundTrips contentHash ↔
      NamesEncodable (bundle.manifest.payloads.map PayloadEntry.name) := by
  constructor
  · rintro ⟨valid, _⟩
    exact (encodable_iff inside).mp ((decodes_iff _).mp valid.decodes)
  · intro names
    have decodes := (decodes_iff _).mpr ((encodable_iff inside).mpr names)
    refine ⟨⟨fun entry listed => names.plain _ (List.mem_map_of_mem listed), names.distinct, inside,
      recorded, decodes⟩, ?_⟩
    intro directory
    have pairs : ((bundle.manifest.payloads.zip bundle.payloads).map fun file => file.1.name) =
        bundle.manifest.payloads.map PayloadEntry.name := by
      have firsts := List.map_fst_zip (Nat.le_of_eq recorded.length_eq)
      nth_rewrite 2 [← firsts]
      rw [List.map_map]
      rfl
    have files : readFiles contentHash (bundle.write directory) bundle.manifest.payloads =
        .ok bundle.payloads := by
      apply readFiles_ok recorded
      intro file member
      rw [Bundle.write, Directory.write, if_neg (payloadPath_apart _)]
      apply writeFiles_found _ directory file member
      rw [pairs]
      exact names.distinct
    have manifest : bundle.write directory manifestFile = some bundle.manifest.toBytes := by
      rw [Bundle.write, Directory.write, if_pos rfl]
    rw [Bundle.read, manifest]
    dsimp only
    rw [decodes]
    dsimp only
    rw [files]
    rfl

/-! ## Where bundles come from -/

theorem build_ok {runner : RunnerId} {profile : BuildProfile} {payloads : List NamedPayload}
    {entry : UInt32} (built : Bundle.build contentHash runner profile payloads entry = .ok bundle) :
    bundle.manifest.payloads.map PayloadEntry.name = payloads.map NamedPayload.name ∧
      bundle.manifest.entry.toNat < bundle.manifest.payloads.length ∧
      List.Forall₂ (Recorded contentHash) bundle.manifest.payloads bundle.payloads := by
  unfold Bundle.build at built
  split at built
  · cases built
  · split at built
    · cases built
    · rename_i inside
      split at built
      · cases built
      · split at built
        · cases built
        · cases built
          refine ⟨?_, ?_, ?_⟩
          · rw [List.map_map]
            rfl
          · rw [List.length_map]
            exact Nat.not_le.mp inside
          · rw [List.forall₂_map_left_iff, List.forall₂_map_right_iff, List.forall₂_same]
            exact fun payload _ => ⟨rfl, rfl⟩

theorem receiveAll_ok {received : List (Option (List UInt8))} {bytes : List (List UInt8)}
    (enough : entries.length ≤ received.length)
    (answered : receiveAll contentHash (entries.zip received) = .ok bytes) :
    List.Forall₂ (Recorded contentHash) entries bytes := by
  induction entries generalizing received bytes with
  | nil =>
    cases answered
    exact .nil
  | cons entry entries ih =>
    cases received with
    | nil => cases enough
    | cons first received =>
      cases first with
      | none => cases answered
      | some payload =>
        rw [List.zip_cons_cons, receiveAll] at answered
        cases verified : verify contentHash entry payload with
        | error error =>
          rw [verified] at answered
          cases answered
        | ok done =>
          rw [verified] at answered
          cases rest : receiveAll contentHash (entries.zip received) with
          | error error =>
            rw [rest] at answered
            cases answered
          | ok others =>
            rw [rest] at answered
            cases answered
            exact .cons (verify_ok_iff.mp verified) (ih (Nat.le_of_succ_le_succ enough) rest)

theorem assemble_ok {manifest : BundleManifest} {received : List (Option (List UInt8))}
    (assembled : Bundle.assemble contentHash manifest received = .ok bundle) :
    bundle.manifest = manifest ∧ bundle.manifest.entry.toNat < bundle.manifest.payloads.length ∧
      List.Forall₂ (Recorded contentHash) bundle.manifest.payloads bundle.payloads := by
  unfold Bundle.assemble at assembled
  split at assembled
  · cases assembled
  · rename_i inside
    dsimp only at assembled
    cases answered : receiveAll contentHash (manifest.payloads.zip
        ((received ++ List.replicate manifest.payloads.length none).take
          manifest.payloads.length)) with
    | error error =>
      rw [answered] at assembled
      cases assembled
    | ok bytes =>
      rw [answered] at assembled
      cases assembled
      refine ⟨rfl, Nat.not_le.mp inside, receiveAll_ok ?_ answered⟩
      rw [List.length_take, List.length_append, List.length_replicate]
      exact Nat.le_min.mpr ⟨Nat.le_refl _, Nat.le_add_left _ _⟩

theorem readFiles_recorded {payloads : List (List UInt8)}
    (read : readFiles contentHash directory entries = .ok payloads) :
    List.Forall₂ (Recorded contentHash) entries payloads := by
  induction entries generalizing payloads with
  | nil =>
    cases read
    exact .nil
  | cons entry entries ih =>
    rw [readFiles] at read
    cases found : directory (payloadPath entry.name) with
    | none =>
      rw [found] at read
      cases read
    | some bytes =>
      rw [found] at read
      dsimp only at read
      cases verified : verify contentHash entry bytes with
      | error error =>
        rw [verified] at read
        cases read
      | ok done =>
        rw [verified] at read
        cases rest : readFiles contentHash directory entries with
        | error error =>
          rw [rest] at read
          cases read
        | ok others =>
          rw [rest] at read
          cases read
          exact .cons (verify_ok_iff.mp verified) (ih rest)

theorem read_ok (read : Bundle.read contentHash directory = .ok bundle) :
    Encodable bundle.manifest ∧
      List.Forall₂ (Recorded contentHash) bundle.manifest.payloads bundle.payloads := by
  unfold Bundle.read at read
  split at read
  · cases read
  · split at read
    · cases read
    · rename_i manifest decoded
      cases files : readFiles contentHash directory manifest.payloads with
      | error error =>
        rw [files] at read
        cases read
      | ok payloads =>
        rw [files] at read
        cases read
        exact ⟨decoded_encodable decoded, readFiles_recorded files⟩

/-- A bundle, and the names it was made with.  The names of one that is read come from the
decoder. -/
inductive Obtained (contentHash : List UInt8 → ContentHash) : List String → Bundle → Prop
  | built {runner : RunnerId} {profile : BuildProfile} {payloads : List NamedPayload}
      {entry : UInt32} {bundle : Bundle}
      (built : Bundle.build contentHash runner profile payloads entry = .ok bundle) :
      Obtained contentHash (payloads.map NamedPayload.name) bundle
  | assembled {manifest : BundleManifest} {received : List (Option (List UInt8))} {bundle : Bundle}
      (assembled : Bundle.assemble contentHash manifest received = .ok bundle) :
      Obtained contentHash (manifest.payloads.map PayloadEntry.name) bundle
  | read {directory : Directory} {bundle : Bundle}
      (read : Bundle.read contentHash directory = .ok bundle) : Obtained contentHash [] bundle

/-- A bundle is valid, and can be written and read back, exactly where the decoder would
accept the names it was made with. -/
theorem obtained_sound_iff {names : List String} {bundle : Bundle}
    (obtained : Obtained contentHash names bundle) :
    bundle.Valid contentHash ∧ bundle.RoundTrips contentHash ↔ NamesEncodable names := by
  cases obtained with
  | built built =>
    rcases build_ok built with ⟨same, inside, recorded⟩
    rw [← same]
    exact bundle_sound_iff inside recorded
  | assembled assembled =>
    rcases assemble_ok assembled with ⟨same, inside, recorded⟩
    rw [← same]
    exact bundle_sound_iff inside recorded
  | read read =>
    rcases read_ok read with ⟨encodable, recorded⟩
    have names := (encodable_iff encodable.entry).mp encodable
    constructor
    · intro _
      exact ⟨by decide, by simp, by simp, List.nodup_nil⟩
    · intro _
      exact (bundle_sound_iff encodable.entry recorded).mpr names

end Hashing

def firstBytes (bytes : List UInt8) : ContentHash :=
  ⟨(bytes ++ List.replicate hashLen 0).take hashLen, by simp [hashLen]⟩

theorem one_payload_is_sound :
    ∃ bundle, Bundle.build firstBytes .desktop .debug [⟨"app.kbc", .vmBytecode, [1, 2]⟩] 0 =
        .ok bundle ∧ bundle.Valid firstBytes ∧ bundle.RoundTrips firstBytes := by
  have built : Bundle.build firstBytes .desktop .debug [⟨"app.kbc", .vmBytecode, [1, 2]⟩] 0 =
      .ok ⟨⟨.desktop, .debug, [⟨"app.kbc", .vmBytecode, firstBytes [1, 2], 2⟩], 0⟩, [[1, 2]]⟩ := by
    decide
  refine ⟨_, built, (obtained_sound_iff (.built built)).mpr ?_⟩
  exact ⟨by decide, by decide, by decide, by decide⟩

/-- A manifest of one payload, and what is received for it. -/
def oneNamed (name : String) : BundleManifest :=
  ⟨.desktop, .debug, [⟨name, .asset, firstBytes [7], 1⟩], 0⟩

/-- A bundle is put together under a name that leaves its directory, and under the same name
twice. -/
theorem assembled_names_are_unchecked :
    (∃ bundle, Bundle.assemble firstBytes (oneNamed "../escape") [some [7]] = .ok bundle ∧
        isPlainFileName "../escape" = false ∧ ¬ bundle.Valid firstBytes) ∧
      ∃ bundle, Bundle.assemble firstBytes
          { oneNamed "a" with payloads := (oneNamed "a").payloads ++ (oneNamed "a").payloads }
          [some [7], some [7]] = .ok bundle ∧ ¬ bundle.Valid firstBytes := by
  constructor
  · refine ⟨⟨oneNamed "../escape", [[7]]⟩, rfl, by decide, ?_⟩
    intro valid
    have plain := valid.plain _ List.mem_cons_self
    revert plain
    decide
  · refine ⟨⟨_, [[7], [7]]⟩, rfl, ?_⟩
    intro valid
    have distinct := valid.distinct
    revert distinct
    decide

end KiraLive

end KiraVm
