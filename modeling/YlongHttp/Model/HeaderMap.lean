import YlongHttp.Model.Headers

/-! # The entries of a header map by name (`headers.rs`) -/

namespace YlongHttp

open HeaderName

namespace Headers

variable (self : Headers)

def find (name : HeaderName) : Option HeaderValue :=
  (self.entries.find? fun e => e.1 = name).map (·.2)

/-- `HashMap::remove`. -/
def removeName (name : HeaderName) : Headers where
  entries := self.entries.filter fun e => e.1 ≠ name
  nodup := (List.filter_sublist.map Prod.fst).nodup self.nodup

/-- `HashMap::insert`. -/
def insertName (name : HeaderName) (value : HeaderValue) : Headers where
  entries := (self.removeName name).entries ++ [(name, value)]
  nodup := by
    rw [List.map_append, List.nodup_append]
    refine ⟨(self.removeName name).nodup, List.nodup_singleton _, ?_⟩
    rintro a ha b hb rfl
    obtain rfl : a = name := List.mem_singleton.mp hb
    simp [removeName] at ha

def get (name : Bytes) : Option HeaderValue :=
  (fromBytes name).bind self.find

/-- `Headers::insert`; `none` is an invalid name or value. -/
def insert (name value : Bytes) : Option Headers :=
  (fromBytes name).bind fun name =>
    (HeaderValue.fromBytes value).map fun value => self.insertName name value

def remove (name : Bytes) : Headers :=
  match fromBytes name with
  | none => self
  | some name => self.removeName name

theorem find_removeName (name name' : HeaderName) :
    (self.removeName name).find name' = if name' = name then none else self.find name' := by
  simp only [find, removeName, List.find?_filter]
  by_cases hname : name' = name
  · subst hname
    simp
  · rw [if_neg hname]
    congr 2
    funext e
    by_cases he : e.1 = name'
    · simp [he, hname]
    · simp [he]

theorem find_insertName (name : HeaderName) (value : HeaderValue) (name' : HeaderName) :
    (self.insertName name value).find name' =
      if name' = name then some value else self.find name' := by
  have hremove := self.find_removeName name name'
  rw [find] at hremove
  rw [find, insertName, List.find?_append, Option.map_or, hremove]
  by_cases hname : name' = name
  · simp [hname]
  · have hne : ¬name = name' := fun heq => hname heq.symm
    simp [hname, hne]

theorem get_insert {self headers : Headers} {name value : Bytes}
    (h : self.insert name value = some headers) {name' : Bytes}
    (hne : fromBytes name' ≠ fromBytes name) :
    headers.get name' = self.get name' := by
  rw [insert, Option.bind_eq_some_iff] at h
  obtain ⟨n, hn, hmap⟩ := h
  rw [Option.map_eq_some_iff] at hmap
  obtain ⟨v, -, rfl⟩ := hmap
  rw [hn] at hne
  cases hn' : fromBytes name' with
  | none => simp [get, hn']
  | some n' =>
    have hnn : n' ≠ n := fun heq => hne (by rw [hn', heq])
    simp [get, hn', find_insertName, hnn]

theorem get_remove (name name' : Bytes) :
    (self.remove name).get name' =
      if fromBytes name' = fromBytes name then none else self.get name' := by
  cases hn : fromBytes name with
  | none =>
    cases hn' : fromBytes name' with
    | none => simp [remove, get, hn, hn']
    | some n' => simp [remove, hn]
  | some n =>
    cases hn' : fromBytes name' with
    | none => simp [get, hn']
    | some n' => simp [remove, get, hn, hn', find_removeName]

theorem get_removes (names : List Bytes) (name : Bytes) :
    (names.foldl remove self).get name =
      if fromBytes name ∈ names.map fromBytes then none
      else self.get name := by
  induction names generalizing self with
  | nil => rfl
  | cons n names ih =>
    rw [List.foldl_cons, ih, get_remove]
    by_cases hn : fromBytes name = fromBytes n
    · simp [hn]
    · simp [hn]

end Headers

end YlongHttp
