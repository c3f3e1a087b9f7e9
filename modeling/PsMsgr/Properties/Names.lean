import PsMsgr.State.Lock

namespace PsMsgr

open Effect

/-! # The files of different channels in one directory

A channel's name may end like one of the library's own files, so what keeps the files apart is
the end of their names: six characters without a dot are never the end of `.state` or `.lock`.
-/

/-- The files the library makes for a channel. -/
inductive ChannelFile where
  | data
  | lock
  | tmp (suffix : Suffix)
deriving DecidableEq

def Paths.path (p : Paths) : ChannelFile → List Char
  | .data => p.data
  | .lock => p.lock
  | .tmp suffix => p.data ++ ".tmp.".toList ++ suffix

/-- The name of the file in its directory. -/
def Paths.entry (p : Paths) (file : ChannelFile) : List Char :=
  (p.path file).drop (p.dir.length + 1)

/-- What `mkostemp` puts in the place of `XXXXXX`. -/
def Suffix.Generated (suffix : Suffix) : Prop :=
  suffix.length = 6 ∧ ∀ c ∈ suffix, c.isAlphanum = true

def ChannelFile.Possible : ChannelFile → Prop
  | .tmp suffix => suffix.Generated
  | _ => True

/-- The directory a program sees that lists it and removes temporary files of `p`. -/
def execEntries (p : Paths) : (request : Sys) → List (List Char) → request.Reply →
    List (List Char) → Prop
  | .readdir, entries, reply, after => reply = some entries ∧ after = entries
  | .unlinkTmp suffix, entries, reply, after =>
      reply = (if p.entry (.tmp suffix) ∈ entries then .ok () else .error .enoent) ∧
        after = entries.filter (· ≠ p.entry (.tmp suffix))
  | _, _, _, _ => False

section Ends

variable {start start' name suffix suffix' : List Char}

theorem Suffix.Generated.dotless {suffix : Suffix} (generated : suffix.Generated) :
    '.' ∉ suffix := by
  intro member
  exact absurd (generated.2 '.' member) (by decide)

theorem ends_with (same : start ++ suffix = start' ++ suffix')
    (shorter : suffix.length ≤ suffix'.length) : suffix <:+ suffix' :=
  List.suffix_of_suffix_length_le ⟨start, rfl⟩ ⟨start', same.symm⟩ shorter

/-- Six characters without a dot are not the end of a word that ends in a dot and five or
fewer others. -/
theorem dotted_end_ne {dotted : List Char} (dot : '.' ∈ dotted) (short : dotted.length ≤ 6)
    (six : suffix.length = 6) (dotless : '.' ∉ suffix) : start ++ dotted ≠ start' ++ suffix := by
  intro same
  have ends := ends_with same (by omega)
  exact dotless (ends.subset dot)

theorem data_ne_lock : start ++ ".state".toList ≠ start' ++ ".lock".toList := by
  intro same
  have last := congrArg List.getLast? same
  simp [List.getLast?_append] at last

end Ends

section

variable {environment dir : Option (List Char)} {n m : List Char}

theorem pathsOf_name_eq {ending : List Char}
    (same : ((pathsOf environment dir n).dir ++ "/psmsgr.".toList ++ n) ++ ending =
      ((pathsOf environment dir n).dir ++ "/psmsgr.".toList ++ m) ++ ending) : n = m :=
  List.append_cancel_left (List.append_cancel_right same)

theorem path_injective {file other : ChannelFile} (possible : file.Possible)
    (possible' : other.Possible)
    (same : (pathsOf environment dir n).path file = (pathsOf environment dir m).path other) :
    n = m ∧ file = other := by
  have dataTmp : ∀ {n m : List Char} {suffix : Suffix}, suffix.Generated →
      (pathsOf environment dir n).data ≠
        (pathsOf environment dir m).data ++ ".tmp.".toList ++ suffix :=
    fun generated => dotted_end_ne (by decide) (by decide) generated.1 generated.dotless
  have lockTmp : ∀ {n m : List Char} {suffix : Suffix}, suffix.Generated →
      (pathsOf environment dir n).lock ≠
        (pathsOf environment dir m).data ++ ".tmp.".toList ++ suffix :=
    fun generated => dotted_end_ne (by decide) (by decide) generated.1 generated.dotless
  cases file with
  | data =>
      cases other with
      | data => exact ⟨pathsOf_name_eq same, rfl⟩
      | lock => exact absurd same data_ne_lock
      | tmp suffix => exact absurd same (dataTmp possible')
  | lock =>
      cases other with
      | data => exact absurd same.symm data_ne_lock
      | lock => exact ⟨pathsOf_name_eq same, rfl⟩
      | tmp suffix => exact absurd same (lockTmp possible')
  | tmp suffix =>
      cases other with
      | data => exact absurd same.symm (dataTmp possible)
      | lock => exact absurd same.symm (lockTmp possible)
      | tmp suffix' =>
          obtain ⟨start, rfl⟩ := List.append_inj' same (possible.1.trans possible'.1.symm)
          exact ⟨pathsOf_name_eq (List.append_cancel_right start), rfl⟩

theorem drop_directory (directory rest : List Char) :
    (directory ++ '/' :: rest).drop (directory.length + 1) = rest := by
  rw [← List.drop_drop, List.drop_left]
  rfl

theorem pathsOf_data_split :
    (pathsOf environment dir n).data =
      (pathsOf environment dir n).dir ++ '/' :: (pathsOf environment dir n).dataBase := by
  simp [pathsOf]

theorem entry_data :
    (pathsOf environment dir n).entry .data = (pathsOf environment dir n).dataBase := by
  rw [Paths.entry, Paths.path, pathsOf_data_split, drop_directory]

theorem entry_tmp (suffix : Suffix) :
    (pathsOf environment dir n).entry (.tmp suffix) =
      (pathsOf environment dir n).dataBase ++ ".tmp.".toList ++ suffix := by
  rw [Paths.entry, Paths.path, pathsOf_data_split, List.append_assoc, List.append_assoc,
    List.cons_append, drop_directory, List.append_assoc]

theorem entry_lock :
    (pathsOf environment dir n).entry .lock = "psmsgr.".toList ++ n ++ ".lock".toList := by
  have split : (pathsOf environment dir n).lock = (pathsOf environment dir n).dir ++
      '/' :: ("psmsgr.".toList ++ n ++ ".lock".toList) := by
    simp [pathsOf]
  rw [Paths.entry, Paths.path, split, drop_directory]

theorem staleSuffix_append (dataBase suffix : List Char) :
    staleSuffix dataBase (dataBase ++ ".tmp.".toList ++ suffix) =
      if suffix.length = 6 && !suffix.contains '.' then some suffix else none := by
  have base : dataBase.isPrefixOf (dataBase ++ ".tmp.".toList ++ suffix) = true := by
    rw [List.append_assoc]
    exact List.isPrefixOf_iff_prefix.mpr ⟨_, rfl⟩
  have middle : ".tmp.".toList.isPrefixOf (".tmp.".toList ++ suffix) = true :=
    List.isPrefixOf_iff_prefix.mpr ⟨_, rfl⟩
  unfold staleSuffix
  rw [if_pos base, List.append_assoc, List.drop_left]
  dsimp only
  rw [if_pos middle]
  rfl

/-- Exactly the names of the channel's own temporary files. -/
theorem staleSuffix_eq_some_iff {dataBase entry suffix : List Char} :
    staleSuffix dataBase entry = some suffix ↔
      entry = dataBase ++ ".tmp.".toList ++ suffix ∧ suffix.length = 6 ∧ '.' ∉ suffix := by
  constructor
  · intro found
    have split : ∃ rest, entry = dataBase ++ ".tmp.".toList ++ rest := by
      unfold staleSuffix at found
      split at found
      · next base =>
          obtain ⟨rest, rfl⟩ := List.isPrefixOf_iff_prefix.mp base
          rw [List.drop_left] at found
          dsimp only at found
          split at found
          · next middle =>
              obtain ⟨tail, rfl⟩ := List.isPrefixOf_iff_prefix.mp middle
              exact ⟨tail, (List.append_assoc _ _ _).symm⟩
          · exact nomatch found
      · exact nomatch found
    obtain ⟨rest, rfl⟩ := split
    rw [staleSuffix_append] at found
    split at found
    · next stale =>
        obtain rfl := Option.some.inj found
        simp only [Bool.and_eq_true, decide_eq_true_eq, Bool.not_eq_true', List.contains_eq_mem,
          decide_eq_false_iff_not] at stale
        exact ⟨rfl, stale⟩
    · exact nomatch found
  · rintro ⟨rfl, six, dotless⟩
    rw [staleSuffix_append, if_pos]
    simp [six, dotless]

variable {p : Paths}

theorem ends_unlinkStale (own : ∀ suffix, p.entry (.tmp suffix) = p.dataBase ++ ".tmp.".toList ++ suffix)
    (rest entries : List (List Char)) :
    (unlinkStale p.dataBase rest).Must (execEntries p)
      (fun _ left => ∀ entry, entry ∈ left ↔
        entry ∈ entries ∧ (entry ∉ rest ∨ staleSuffix p.dataBase entry = none)) entries := by
  induction rest generalizing entries with
  | nil =>
      intro entry
      simp
  | cons first rest ih =>
      rw [unlinkStale]
      cases stale : staleSuffix p.dataBase first with
      | none =>
          refine (ih entries).mono fun _ left remaining entry => ?_
          rw [remaining, List.mem_cons, not_or]
          constructor
          · rintro ⟨member, unseen | other⟩
            · by_cases same : entry = first
              · exact ⟨member, .inr (same ▸ stale)⟩
              · exact ⟨member, .inl ⟨same, unseen⟩⟩
            · exact ⟨member, .inr other⟩
          · rintro ⟨member, unseen | other⟩
            · exact ⟨member, .inl unseen.2⟩
            · exact ⟨member, .inr other⟩
      | some suffix =>
          have named : p.entry (.tmp suffix) = first :=
            (own suffix).trans (staleSuffix_eq_some_iff.mp stale).1.symm
          refine ⟨fun _ => ⟨_, _, rfl, rfl⟩, fun reply after happened => ?_⟩
          obtain ⟨-, rfl⟩ := happened
          rw [named]
          refine (ih _).mono fun _ left remaining entry => ?_
          rw [remaining, List.mem_filter, decide_eq_true_eq, List.mem_cons, not_or]
          constructor
          · rintro ⟨⟨member, distinct⟩, unseen | other⟩
            · exact ⟨member, .inl ⟨distinct, unseen⟩⟩
            · exact ⟨member, .inr other⟩
          · rintro ⟨member, unseen | other⟩
            · exact ⟨⟨member, unseen.1⟩, .inl unseen.2⟩
            · refine ⟨⟨member, fun same => ?_⟩, .inr other⟩
              rw [same, stale] at other
              exact nomatch other

theorem ends_removeStaleTmp_entries
    (own : ∀ suffix, p.entry (.tmp suffix) = p.dataBase ++ ".tmp.".toList ++ suffix)
    (entries : List (List Char)) :
    (removeStaleTmp p).Must (execEntries p)
      (fun _ left => ∀ entry, entry ∈ left ↔
        entry ∈ entries ∧ staleSuffix p.dataBase entry = none) entries := by
  refine ⟨fun _ => ⟨_, _, rfl, rfl⟩, fun reply after happened => ?_⟩
  obtain ⟨rfl, rfl⟩ := happened
  refine (ends_unlinkStale own after after).mono fun _ left remaining entry => ?_
  rw [remaining]
  constructor
  · rintro ⟨member, unseen | other⟩
    · exact absurd member unseen
    · exact ⟨member, other⟩
  · rintro ⟨member, other⟩
    exact ⟨member, .inr other⟩

theorem staleSuffix_entry {file : ChannelFile} {suffix : Suffix} (possible : file.Possible)
    (stale : staleSuffix (pathsOf environment dir n).dataBase
      ((pathsOf environment dir m).entry file) = some suffix) :
    n = m ∧ file = .tmp suffix := by
  obtain ⟨named, six, dotless⟩ := staleSuffix_eq_some_iff.mp stale
  cases file with
  | data =>
      rw [entry_data] at named
      exact absurd named (dotted_end_ne (by decide) (by decide) six dotless)
  | lock =>
      rw [entry_lock] at named
      exact absurd named (dotted_end_ne (by decide) (by decide) six dotless)
  | tmp suffix' =>
      rw [entry_tmp] at named
      obtain ⟨start, rfl⟩ := List.append_inj' named (possible.1.trans six.symm)
      have base := List.append_cancel_right (List.append_cancel_right start)
      exact ⟨(List.append_cancel_left base).symm, rfl⟩

end

/-- In one directory no two files of channels have the same path; and removing the stale files of
a channel removes every temporary file it can have left, but no file of another channel and
neither its own data file nor its lock. -/
theorem file_names_isolated (environment dir : Option (List Char)) (n m : List Char) :
    (∀ {file other}, ChannelFile.Possible file → ChannelFile.Possible other →
      (pathsOf environment dir n).path file = (pathsOf environment dir m).path other →
      n = m ∧ file = other) ∧
    ∀ entries, (removeStaleTmp (pathsOf environment dir n)).Must
      (execEntries (pathsOf environment dir n))
      (fun _ left =>
        (∀ {suffix}, Suffix.Generated suffix →
          (pathsOf environment dir n).entry (.tmp suffix) ∉ left) ∧
        ∀ {file}, ChannelFile.Possible file → (n = m → file = .data ∨ file = .lock) →
          (pathsOf environment dir m).entry file ∈ entries →
          (pathsOf environment dir m).entry file ∈ left) entries := by
  refine ⟨path_injective, fun entries => ?_⟩
  refine (ends_removeStaleTmp_entries entry_tmp entries).mono fun _ left remaining => ⟨?_, ?_⟩
  · intro suffix generated member
    have stale : staleSuffix (pathsOf environment dir n).dataBase
        ((pathsOf environment dir n).entry (.tmp suffix)) = some suffix :=
      staleSuffix_eq_some_iff.mpr ⟨entry_tmp suffix, generated.1, generated.dotless⟩
    exact nomatch stale.symm.trans ((remaining _).mp member).2
  · intro file possible foreign member
    refine (remaining _).mpr ⟨member, ?_⟩
    cases stale : staleSuffix (pathsOf environment dir n).dataBase
        ((pathsOf environment dir m).entry file) with
    | none => rfl
    | some suffix =>
        obtain ⟨same, rfl⟩ := staleSuffix_entry possible stale
        rcases foreign same with own | own
        · exact nomatch own
        · exact nomatch own

end PsMsgr
