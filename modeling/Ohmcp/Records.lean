import Mathlib.Data.List.Nodup
import Mathlib.Data.List.Perm.Basic
import Mathlib.Logic.Equiv.Defs
import Mathlib.Tactic.Common

/-! Records written as named fields and read back by name, or in order from a sequence. What a record
loses on the way is a question to each of its fields; a field that is not known, and the order of
those that are, make no difference. -/

namespace Records

variable {V α β : Type}

/-! ### Values -/

/-- Values that hold entries by name, and values that hold others in order. -/
structure Shape (V : Type) where
  object : List (String × V) → V
  seq : List V → V
  entries : V → Option (List (String × V))
  elements : V → Option (List V)
  entries_object : ∀ l, entries (object l) = some l
  elements_seq : ∀ vs, elements (seq vs) = some vs

/-- How something is written as a value, and read from one. -/
structure Codec (V α : Type) where
  write : α → V
  read : V → Option α

/-- It is read back as it was. -/
def Codec.Returns (codec : Codec V α) (a : α) : Prop := codec.read (codec.write a) = some a

/-- Whatever is read is read back as it was. -/
def Codec.Settled (codec : Codec V α) : Prop := ∀ v a, codec.read v = some a → codec.Returns a

namespace Codec

/-- Something that may be missing: written as nothing, and read from nothing. -/
def option (nothing : V) (isNothing : V → Bool) (codec : Codec V α) : Codec V (Option α) where
  write
    | none => nothing
    | some a => codec.write a
  read v := if isNothing v then some none else (codec.read v).map some

def list (shape : Shape V) (codec : Codec V α) : Codec V (List α) where
  write as := shape.seq (as.map codec.write)
  read v := (shape.elements v).bind fun vs => vs.mapM codec.read

section Option

variable {nothing : V} {isNothing : V → Bool} {codec : Codec V α}

theorem option_returns_none (hnothing : isNothing nothing = true) :
    (option nothing isNothing codec).Returns none :=
  if_pos hnothing

/-- Nothing can be told from something only where something is not written as nothing. -/
@[simp] theorem option_returns_some_iff {a : α} : (option nothing isNothing codec).Returns (some a) ↔
    isNothing (codec.write a) = false ∧ codec.Returns a := by
  change (if isNothing (codec.write a) = true then some none
    else (codec.read (codec.write a)).map some) = some (some a) ↔ _
  rw [Returns]
  cases isNothing (codec.write a) with
  | true => simp
  | false => simp

theorem Settled.option (h : codec.Settled) (hnothing : isNothing nothing = true)
    (hkeeps : ∀ v a, codec.read v = some a → isNothing v = false →
      isNothing (codec.write a) = false) : (option nothing isNothing codec).Settled := by
  intro v found hread
  change (if isNothing v = true then some none else (codec.read v).map some) = some found at hread
  split_ifs at hread with hv
  · obtain rfl := Option.some.inj hread
    exact option_returns_none hnothing
  · obtain ⟨a, ha, rfl⟩ := Option.map_eq_some_iff.mp hread
    exact option_returns_some_iff.mpr
      ⟨hkeeps v a ha (Bool.eq_false_iff.mpr hv), h v a ha⟩

end Option

section List

variable {shape : Shape V} {codec : Codec V α}

theorem mapM_write {as : List α} : (as.map codec.write).mapM codec.read = some as ↔
    ∀ a ∈ as, codec.Returns a := by
  induction as with
  | nil => simp
  | cons a as ih =>
      rw [List.map_cons, List.mapM_cons, List.forall_mem_cons, ← ih, Returns]
      cases codec.read (codec.write a) with
      | none => simp
      | some b =>
          cases (as.map codec.write).mapM codec.read with
          | none => simp
          | some bs => simp

@[simp] theorem list_returns_iff {as : List α} :
    (list shape codec).Returns as ↔ ∀ a ∈ as, codec.Returns a := by
  rw [Returns, ← mapM_write]
  change (shape.elements (shape.seq _)).bind _ = _ ↔ _
  rw [shape.elements_seq, Option.bind_some]

end List

end Codec

/-! ### Fields -/

/-- Some fields of a record, with different names: they are written by name, each at most once, and
read by name or as the next elements of a sequence. -/
structure Fields (V α : Type) where
  keys : List String
  keys_nodup : keys.Nodup
  write : α → List (String × V)
  read : (String → Option V) → Option α
  fill : List V → Option (α × List V)
  keys_write : ∀ a, ((write a).map Prod.fst).Sublist keys
  read_congr : ∀ f g, (∀ key ∈ keys, f key = g key) → read f = read g

namespace Fields

/-- They are read by name as they were. -/
def Returns (fields : Fields V α) (a : α) : Prop :=
  fields.read (fun key => (fields.write a).lookup key) = some a

/-- Whatever is read, either way, is read by name as it was. -/
structure Settled (fields : Fields V α) : Prop where
  read : ∀ f a, fields.read f = some a → fields.Returns a
  fill : ∀ vs a rest, fields.fill vs = some (a, rest) → fields.Returns a

/-- A field that has to be there. -/
def required (key : String) (codec : Codec V α) : Fields V α where
  keys := [key]
  keys_nodup := List.nodup_singleton key
  write a := [(key, codec.write a)]
  read f := (f key).bind codec.read
  fill
    | [] => none
    | v :: vs => (codec.read v).map (·, vs)
  keys_write _ := List.Sublist.refl _
  read_congr _ _ h := by rw [h key (List.mem_singleton_self _)]

/-- A field with a default, and values that are not written. -/
def omittable (key : String) (codec : Codec V α) (default : α) (skip : α → Bool) : Fields V α where
  keys := [key]
  keys_nodup := List.nodup_singleton key
  write a := if skip a then [] else [(key, codec.write a)]
  read f :=
    match f key with
    | none => some default
    | some v => codec.read v
  fill
    | [] => some (default, [])
    | v :: vs => (codec.read v).map (·, vs)
  keys_write a := by
    split
    · exact List.nil_sublist _
    · exact List.Sublist.refl _
  read_congr _ _ h := by rw [h key (List.mem_singleton_self _)]

/-- One group of fields and then another. -/
def append (first : Fields V α) (second : Fields V β) (hnodup : (first.keys ++ second.keys).Nodup) :
    Fields V (α × β) where
  keys := first.keys ++ second.keys
  keys_nodup := hnodup
  write a := first.write a.1 ++ second.write a.2
  read f := (first.read f).bind fun a => (second.read f).map (a, ·)
  fill vs := (first.fill vs).bind fun a => (second.fill a.2).map fun b => ((a.1, b.1), b.2)
  keys_write a := by
    rw [List.map_append]
    exact (first.keys_write a.1).append (second.keys_write a.2)
  read_congr f g h := by
    rw [first.read_congr f g fun key hkey => h key (List.mem_append_left _ hkey),
      second.read_congr f g fun key hkey => h key (List.mem_append_right _ hkey)]

/-- The same fields of another type. -/
def map (fields : Fields V α) (e : α ≃ β) : Fields V β where
  keys := fields.keys
  keys_nodup := fields.keys_nodup
  write b := fields.write (e.symm b)
  read f := (fields.read f).map e
  fill vs := (fields.fill vs).map fun a => (e a.1, a.2)
  keys_write b := fields.keys_write (e.symm b)
  read_congr f g h := by rw [fields.read_congr f g h]

section Laws

variable {key : String} {codec : Codec V α} {default : α} {skip : α → Bool} {a : α}

@[simp] theorem required_returns_iff : (required key codec).Returns a ↔ codec.Returns a := by
  rw [Returns, Codec.Returns]
  change (List.lookup key [(key, codec.write a)]).bind _ = _ ↔ _
  rw [List.lookup_cons_self, Option.bind_some]

@[simp] theorem omittable_returns_iff : (omittable key codec default skip).Returns a ↔
    if skip a then a = default else codec.Returns a := by
  rw [Returns, Codec.Returns]
  change (match List.lookup key (if skip a then [] else [(key, codec.write a)]) with
    | none => some default
    | some v => codec.read v) = _ ↔ _
  split_ifs
  · simp [eq_comm]
  · rw [List.lookup_cons_self]

theorem lookup_write_of_notMem {fields : Fields V α} (hkey : key ∉ fields.keys) :
    (fields.write a).lookup key = none := by
  apply List.lookup_eq_none_iff.mpr
  intro entry hentry
  have hmem := (fields.keys_write a).subset (List.mem_map_of_mem (f := Prod.fst) hentry)
  simp only [bne_iff_ne, ne_eq]
  rintro rfl
  exact hkey hmem

@[simp] theorem append_returns_iff {first : Fields V α} {second : Fields V β}
    {hnodup : (first.keys ++ second.keys).Nodup} {ab : α × β} :
    (append first second hnodup).Returns ab ↔ first.Returns ab.1 ∧ second.Returns ab.2 := by
  obtain ⟨a, b⟩ := ab
  have hdisjoint := List.disjoint_of_nodup_append hnodup
  have hfirst : first.read (fun key => (first.write a ++ second.write b).lookup key) =
      first.read (fun key => (first.write a).lookup key) := by
    apply first.read_congr
    intro key hkey
    rw [List.lookup_append, lookup_write_of_notMem (hdisjoint hkey), Option.or_none]
  have hsecond : second.read (fun key => (first.write a ++ second.write b).lookup key) =
      second.read (fun key => (second.write b).lookup key) := by
    apply second.read_congr
    intro key hkey
    rw [List.lookup_append, lookup_write_of_notMem fun h => hdisjoint h hkey, Option.none_or]
  rw [Returns, Returns, Returns]
  change (first.read fun key => (first.write a ++ second.write b).lookup key).bind (fun a' =>
    (second.read fun key => (first.write a ++ second.write b).lookup key).map (a', ·)) = _ ↔ _
  rw [hfirst, hsecond]
  cases first.read (fun key => (first.write a).lookup key) with
  | none => simp
  | some a' =>
      cases second.read (fun key => (second.write b).lookup key) with
      | none => simp
      | some b' => simp

@[simp] theorem map_returns_iff {fields : Fields V α} {e : α ≃ β} {b : β} :
    (fields.map e).Returns b ↔ fields.Returns (e.symm b) := by
  rw [Returns, Returns]
  change (fields.read _).map e = some b ↔ _
  rw [Option.map_eq_some_iff]
  constructor
  · rintro ⟨a, ha, rfl⟩
    simp only [map, e.symm_apply_apply] at ha ⊢
    exact ha
  · intro h
    exact ⟨e.symm b, h, e.apply_symm_apply b⟩

theorem Settled.required (h : codec.Settled) : (required key codec).Settled where
  read f a hread := by
    obtain ⟨v, _, hv⟩ := Option.bind_eq_some_iff.mp hread
    exact required_returns_iff.mpr (h v a hv)
  fill vs a rest hfill := by
    cases vs with
    | nil => cases hfill
    | cons v vs =>
        obtain ⟨b, hb, heq⟩ := Option.map_eq_some_iff.mp hfill
        cases heq
        exact required_returns_iff.mpr (h v _ hb)

theorem Settled.omittable (h : codec.Settled) (hdefault : skip default = false → codec.Returns default)
    (hskip : ∀ a, skip a = true → a = default) : (omittable key codec default skip).Settled := by
  have hgiven : (Fields.omittable key codec default skip).Returns default := by
    rw [omittable_returns_iff]
    split_ifs with hs
    · rfl
    · exact hdefault (Bool.eq_false_iff.mpr hs)
  have hfound : ∀ v a, codec.read v = some a → (Fields.omittable key codec default skip).Returns a := by
    intro v a hread
    rw [omittable_returns_iff]
    split_ifs with hs
    · exact hskip a hs
    · exact h v a hread
  constructor
  · intro f a hread
    change (match f key with
      | none => some default
      | some v => codec.read v) = some a at hread
    cases hf : f key with
    | none =>
        rw [hf] at hread
        obtain rfl := Option.some.inj hread
        exact hgiven
    | some v =>
        rw [hf] at hread
        exact hfound v a hread
  · intro vs a rest hfill
    cases vs with
    | nil =>
        obtain ⟨rfl, _⟩ := Prod.mk.inj (Option.some.inj hfill)
        exact hgiven
    | cons v vs =>
        obtain ⟨b, hb, heq⟩ := Option.map_eq_some_iff.mp hfill
        cases heq
        exact hfound v _ hb

theorem Settled.append {first : Fields V α} {second : Fields V β}
    {hnodup : (first.keys ++ second.keys).Nodup} (hfirst : first.Settled) (hsecond : second.Settled) :
    (append first second hnodup).Settled where
  read f ab hread := by
    obtain ⟨a, ha, hrest⟩ := Option.bind_eq_some_iff.mp hread
    obtain ⟨b, hb, rfl⟩ := Option.map_eq_some_iff.mp hrest
    exact append_returns_iff.mpr ⟨hfirst.read f a ha, hsecond.read f b hb⟩
  fill vs ab rest hfill := by
    obtain ⟨⟨a, vs'⟩, ha, hrest⟩ := Option.bind_eq_some_iff.mp hfill
    obtain ⟨⟨b, vs''⟩, hb, heq⟩ := Option.map_eq_some_iff.mp hrest
    cases heq
    exact append_returns_iff.mpr ⟨hfirst.fill vs a vs' ha, hsecond.fill vs' b vs'' hb⟩

theorem Settled.map {fields : Fields V α} (h : fields.Settled) (e : α ≃ β) :
    (fields.map e).Settled where
  read f b hread := by
    obtain ⟨a, ha, rfl⟩ := Option.map_eq_some_iff.mp hread
    rw [map_returns_iff, e.symm_apply_apply]
    exact h.read f a ha
  fill vs b rest hfill := by
    obtain ⟨⟨a, vs'⟩, ha, heq⟩ := Option.map_eq_some_iff.mp hfill
    cases heq
    rw [map_returns_iff, e.symm_apply_apply]
    exact h.fill vs a vs' ha

end Laws

/-! ### Records -/

/-- The entries with a name that is known. -/
def known (fields : Fields V α) (entries : List (String × V)) : List (String × V) :=
  entries.filter fun entry => entry.1 ∈ fields.keys

/-- No known name may occur twice. -/
def readEntries (fields : Fields V α) (entries : List (String × V)) : Option α :=
  if ((fields.known entries).map Prod.fst).Nodup then
    fields.read fun key => (fields.known entries).lookup key
  else none

/-- No element may be left over. -/
def readElements (fields : Fields V α) (vs : List V) : Option α :=
  match fields.fill vs with
  | some (a, []) => some a
  | _ => none

def record (shape : Shape V) (fields : Fields V α) : Codec V α where
  write a := shape.object (fields.write a)
  read v :=
    match shape.entries v with
    | some entries => fields.readEntries entries
    | none => (shape.elements v).bind fields.readElements

section Record

variable {shape : Shape V} {fields : Fields V α} {a : α}

theorem known_write : fields.known (fields.write a) = fields.write a := by
  apply List.filter_eq_self.mpr
  intro entry hentry
  have hmem := (fields.keys_write a).subset (List.mem_map_of_mem (f := Prod.fst) hentry)
  exact decide_eq_true hmem

theorem readEntries_write :
    fields.readEntries (fields.write a) = some a ↔ fields.Returns a := by
  rw [readEntries, known_write, if_pos ((fields.keys_write a).nodup fields.keys_nodup), Returns]

@[simp] theorem record_returns_iff : (fields.record shape).Returns a ↔ fields.Returns a := by
  rw [← readEntries_write, Codec.Returns]
  change (match shape.entries (shape.object (fields.write a)) with
    | some entries => fields.readEntries entries
    | none => _) = _ ↔ _
  rw [shape.entries_object]

theorem Settled.record (h : fields.Settled) : (fields.record shape).Settled := by
  intro v a hread
  apply record_returns_iff.mpr
  change (match shape.entries v with
    | some entries => fields.readEntries entries
    | none => (shape.elements v).bind fields.readElements) = some a at hread
  cases hentries : shape.entries v with
  | some entries =>
      rw [hentries] at hread
      change fields.readEntries entries = some a at hread
      rw [readEntries] at hread
      split_ifs at hread
      exact h.read _ a hread
  | none =>
      rw [hentries] at hread
      obtain ⟨vs, _, hvs⟩ := Option.bind_eq_some_iff.mp hread
      rw [readElements] at hvs
      split at hvs
      · rename_i b hfill
        obtain rfl := Option.some.inj hvs
        exact h.fill vs b [] hfill
      · cases hvs

theorem lookup_eq_some_iff_mem {entries : List (String × V)} (hnodup : (entries.map Prod.fst).Nodup)
    {key : String} {v : V} : entries.lookup key = some v ↔ (key, v) ∈ entries := by
  constructor
  · intro h
    obtain ⟨before, after, rfl, _⟩ := List.lookup_eq_some_iff.mp h
    exact List.mem_append_right _ List.mem_cons_self
  · intro h
    obtain ⟨before, after, rfl⟩ := List.append_of_mem h
    apply List.lookup_eq_some_iff.mpr
    refine ⟨before, after, rfl, fun entry hentry => ?_⟩
    rw [List.map_append, List.map_cons] at hnodup
    have hne := (List.nodup_append.mp hnodup).2.2 entry.1 (List.mem_map_of_mem hentry) key
      List.mem_cons_self
    exact bne_iff_ne.mpr hne.symm

/-- Names that are not known, and the order of those that are, make no difference. -/
theorem readEntries_of_perm {entries entries' : List (String × V)}
    (h : (fields.known entries).Perm (fields.known entries')) :
    fields.readEntries entries = fields.readEntries entries' := by
  have hnames := h.map Prod.fst
  by_cases hnodup : ((fields.known entries).map Prod.fst).Nodup
  · have hnodup' := hnames.nodup hnodup
    rw [readEntries, readEntries, if_pos hnodup, if_pos hnodup']
    apply fields.read_congr
    intro key _
    apply Option.ext
    intro v
    rw [lookup_eq_some_iff_mem hnodup, lookup_eq_some_iff_mem hnodup', h.mem_iff]
  · rw [readEntries, readEntries, if_neg hnodup, if_neg fun h' => hnodup (hnames.symm.nodup h')]

end Record

end Fields

end Records
