import Woodhouse.Drives.Boundaries
import Woodhouse.Python.DumpsUtf8
import Woodhouse.Sql.Aggregates
import Woodhouse.Sql.RunLength

namespace Woodhouse.Media
open Python Sql Ingest Drives

/-- The values that make up the state of the media, where they are known. -/
structure MediaState where
  title : Option Str
  artist : Option Str
  album : Option Str
  station : Option Str
  playbackSource : Option Str
  playbackStatus : Option Str
  deriving DecidableEq

/-- `COALESCE(title, …, playback_status) IS NOT NULL`. -/
def MediaState.isKnown (s : MediaState) : Bool :=
  (s.title.or (s.artist.or (s.album.or (s.station.or (s.playbackSource.or s.playbackStatus))))).isSome

/-- A row of `media_updates`. -/
structure MediaUpdate (F : Type) where
  vehicleId : Option Str
  sourceTimestamp : Int
  media : MediaState
  durationUpdate : Option F
  elapsedUpdate : Option F
  volumeUpdate : Option F

section Updates
variable {J F : Type}

/-- `NOT is_invalid AND STARTS_WITH(field_name, 'Media')`. -/
def isMedia (o : Observation J F) : Bool := !o.isInvalid && (str "Media").isPrefixOf o.fieldName

/-- `IF(field_name = name, value, NULL)`. -/
def ifField {β : Type} (name : String) (value : Observation J F → Option β) (o : Observation J F) :
    Option β :=
  if o.fieldName = str name then value o else none

def greatestText (name : String) (rows : List (Observation J F)) : Option Str :=
  maxOf (rows.map (ifField name Observation.stringValue))

def greatestNumber [Max F] (name : String) (rows : List (Observation J F)) : Option F :=
  maxOf (rows.map (ifField name Observation.numericValue))

def mediaOf (rows : List (Observation J F)) : MediaState :=
  { title := greatestText "MediaNowPlayingTitle" rows
    artist := greatestText "MediaNowPlayingArtist" rows
    album := greatestText "MediaNowPlayingAlbum" rows
    station := greatestText "MediaNowPlayingStation" rows
    playbackSource := greatestText "MediaPlaybackSource" rows
    playbackStatus := greatestText "MediaPlaybackStatus" rows }

variable [Max F]

def mediaUpdate (vehicleId : Option Str) (sourceTimestamp : Int) (rows : List (Observation J F)) :
    MediaUpdate F :=
  { vehicleId, sourceTimestamp, media := mediaOf rows
    durationUpdate := greatestNumber "MediaNowPlayingDuration" rows
    elapsedUpdate := greatestNumber "MediaNowPlayingElapsed" rows
    volumeUpdate := greatestNumber "MediaAudioVolume" rows }

def mediaKey (o : Observation J F) : Option Str × Int := (o.vehicleId,micros o.sourceTimestamp)

/-- `GROUP BY vehicle_id, source_timestamp`. -/
def mediaUpdates (table : List (Observation J F)) : List (MediaUpdate F) :=
  (groupBy mediaKey (table.filter isMedia)).map (fun g => mediaUpdate g.1.1 g.1.2 g.2)

/-- `PARTITION BY vehicle_id ORDER BY source_timestamp`. -/
def vehicleUpdates (vehicleId : Option Str) (table : List (Observation J F)) :
    List (MediaUpdate F) :=
  orderBy MediaUpdate.sourceTimestamp
    ((mediaUpdates table).filter (fun u => u.vehicleId = vehicleId))

end Updates

section Intervals
variable {F : Type}

/-- A row of `stateful`. -/
structure Stateful (F : Type) where
  sourceTimestamp : Int
  media : MediaState
  durationMs : Option F
  elapsedMs : Option F
  audioVolume : Option F

/-- The last known values of a frame. -/
def carriedMedia (frame : List (MediaUpdate F)) : MediaState :=
  { title := lastValue (fun u => u.media.title) frame
    artist := lastValue (fun u => u.media.artist) frame
    album := lastValue (fun u => u.media.album) frame
    station := lastValue (fun u => u.media.station) frame
    playbackSource := lastValue (fun u => u.media.playbackSource) frame
    playbackStatus := lastValue (fun u => u.media.playbackStatus) frame }

def carried (frame : List (MediaUpdate F)) (sourceTimestamp : Int) : Stateful F :=
  { sourceTimestamp, media := carriedMedia frame
    durationMs := lastValue MediaUpdate.durationUpdate frame
    elapsedMs := lastValue MediaUpdate.elapsedUpdate frame
    audioVolume := lastValue MediaUpdate.volumeUpdate frame }

def stateful (updates : List (MediaUpdate F)) : List (Stateful F) :=
  (overRows carried updates).map (fun p => p.2 p.1.sourceTimestamp)

/-- The text of a value of a `STRING` column in JSON. -/
def columnText (value : Option Str) : Str := value.elim (str "null") dumpStrUtf8

def column (name : String) (value : Option Str) : Str :=
  dumpStrUtf8 (str name) ++ str ":" ++ columnText value

/-- `TO_JSON_STRING(STRUCT(title, artist, album, station, playback_source, playback_status))`. -/
def mediaSignature (s : MediaState) : Str :=
  str "\x7b" ++ commaSeparated [column "title" s.title,column "artist" s.artist,
    column "album" s.album,column "station" s.station,
    column "playback_source" s.playbackSource,column "playback_status" s.playbackStatus] ++
    str "\x7d"

/-- The rows of `stateful` with their `interval_number`. -/
def grouped (rows : List (Stateful F)) : List (Stateful F × Nat) :=
  changeNumbers (fun r => mediaSignature r.media) rows

/-- `ANY_VALUE(f HAVING MIN source_timestamp)`. -/
def anyValueHavingMin {β : Type} (f : Stateful F → Option β) (rows : List (Stateful F)) : Option β :=
  (rows.filter (fun r => (rows.map Stateful.sourceTimestamp).min? = some r.sourceTimestamp)).findSome? f

/-- `ANY_VALUE(f HAVING MAX source_timestamp)`. -/
def anyValueHavingMax {β : Type} (f : Stateful F → Option β) (rows : List (Stateful F)) : Option β :=
  (rows.filter (fun r => (rows.map Stateful.sourceTimestamp).max? = some r.sourceTimestamp)).findSome? f

/-- A `CAST` that fails; a query fails with it that reads the column. -/
inductive CastFailure where
  | outOfRange

/-- A row of `intervals`. -/
structure Interval (F : Type) where
  vehicleId : Option Str
  startedAt : Int
  media : MediaState
  durationMs : Option (Except CastFailure Int)
  startElapsedMs : Option (Except CastFailure Int)
  endElapsedMs : Option (Except CastFailure Int)
  maximumAudioVolume : Option F
  observationCount : Nat

/-- A row of `media_history`. -/
structure MediaInterval (F : Type) where
  mediaIntervalId : Option Str
  vehicleId : Option Str
  startedAt : Int
  endedAt : Option Int
  media : MediaState
  durationMs : Option (Except CastFailure Int)
  startElapsedMs : Option (Except CastFailure Int)
  endElapsedMs : Option (Except CastFailure Int)
  maximumAudioVolume : Option F
  observationCount : Nat

variable [Max F] (ids : IdFunctions) (castInt64 : F → Except CastFailure Int)

/-- One group of `intervals`. -/
def interval (vehicleId : Option Str) (rows : List (Stateful F)) : Option (Interval F) :=
  (rows.map Stateful.sourceTimestamp).min?.map (fun startedAt =>
    { vehicleId, startedAt
      media :=
        { title := anyValueHavingMin (fun r => r.media.title) rows
          artist := anyValueHavingMin (fun r => r.media.artist) rows
          album := anyValueHavingMin (fun r => r.media.album) rows
          station := anyValueHavingMin (fun r => r.media.station) rows
          playbackSource := anyValueHavingMin (fun r => r.media.playbackSource) rows
          playbackStatus := anyValueHavingMin (fun r => r.media.playbackStatus) rows }
      durationMs := (anyValueHavingMax Stateful.durationMs rows).map castInt64
      startElapsedMs := (anyValueHavingMin Stateful.elapsedMs rows).map castInt64
      endElapsedMs := (anyValueHavingMax Stateful.elapsedMs rows).map castInt64
      maximumAudioVolume := maxOf (rows.map Stateful.audioVolume)
      observationCount := rows.length })

/-- `GROUP BY vehicle_id, interval_number` of one vehicle's rows. -/
def intervals (vehicleId : Option Str) (rows : List (Stateful F)) : List (Interval F) :=
  (groupBy Prod.snd (grouped rows)).filterMap
    (fun g => interval castInt64 vehicleId (g.2.map Prod.fst))

def mediaInterval (i : Interval F) (next : Option (Interval F)) : MediaInterval F :=
  { mediaIntervalId := i.vehicleId.map (fun v => ids.sha256Hex (driveText ids v i.startedAt))
    vehicleId := i.vehicleId, startedAt := i.startedAt
    endedAt := next.map Interval.startedAt
    media := i.media, durationMs := i.durationMs
    startElapsedMs := i.startElapsedMs, endElapsedMs := i.endElapsedMs
    maximumAudioVolume := i.maximumAudioVolume, observationCount := i.observationCount }

/-- One vehicle's rows of `media_history`. -/
def vehicleIntervals (vehicleId : Option Str) (updates : List (MediaUpdate F)) :
    List (MediaInterval F) :=
  (overLead (orderBy Interval.startedAt
    ((intervals castInt64 vehicleId (stateful updates)).filter (fun i => i.media.isKnown)))).map
      (fun p => mediaInterval ids p.1 p.2)

/-- The view `media_history`. -/
def mediaHistory {J : Type} (table : List (Observation J F)) : List (MediaInterval F) :=
  ((mediaUpdates table).map MediaUpdate.vehicleId).dedup.flatMap
    (fun v => vehicleIntervals ids castInt64 v (vehicleUpdates v table))

end Intervals

end Woodhouse.Media
