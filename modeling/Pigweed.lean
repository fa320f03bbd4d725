import Pigweed.Watch.FileTree
import Pigweed.Watch.MinimalWatchDirectories
import Pigweed.Watch.Coverage
import Pigweed.Watch.Setup
import Pigweed.Watch.BuildWatcher
import Pigweed.Console.LogPane
import Pigweed.Console.LogContentControl
import Pigweed.Console.PaneSize
import Pigweed.Rp2040.UnitTestRunner
