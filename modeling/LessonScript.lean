import LessonScript.Coding
import LessonScript.CommandLine.Run
import LessonScript.Json.Reader
import LessonScript.Main
import LessonScript.Notice
import LessonScript.Parser
import LessonScript.Playback.Session
import LessonScript.Proofs.Body.Blanks
import LessonScript.Proofs.Body.Names
import LessonScript.Proofs.Body.Practice
import LessonScript.Proofs.Body.Quotes
import LessonScript.Proofs.Body.Sections
import LessonScript.Proofs.Body.Unmatched
import LessonScript.Proofs.Body.WellFormed
import LessonScript.Proofs.Header.Written
import LessonScript.Proofs.Inline
import LessonScript.Proofs.Inline.Pauses
import LessonScript.Proofs.Inline.Written
import LessonScript.Proofs.Json.Documents
import LessonScript.Proofs.Library.Directory
import LessonScript.Proofs.Library.History
import LessonScript.Proofs.Library.Numbers
import LessonScript.Proofs.Library.Preloading
import LessonScript.Proofs.LineEndings
import LessonScript.Proofs.Outline.Drawing
import LessonScript.Proofs.Playback.Outcome
import LessonScript.Proofs.Playback.Pausing
import LessonScript.Proofs.Playback.Schedule
import LessonScript.Proofs.Registration
import LessonScript.Proofs.Requests
import LessonScript.Proofs.Settings
import LessonScript.Proofs.Timeline.ClosedForm
import LessonScript.Proofs.Timeline.Delays
