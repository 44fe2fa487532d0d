/-! The files that new projects and new elements start from. A template of a project kind is
a list of files for its source folder, in the order of their names; an element template is
one text in which `Template` stands for the name of the class. -/

namespace JuceWorkbench.Scaffold

def fileText (lines : List String) : String :=
  String.join (lines.map (· ++ "\n"))

structure TemplateFile where
  name : String
  text : String
  deriving DecidableEq, Repr

def guiApplicationScript : String := fileText [
  "juce_add_gui_app($\x7bPROJECT_NAME\x7d",
  "    PRODUCT_NAME \"$\x7bPROJECT_NAME\x7d\")",
  "",
  "juce_generate_juce_header($\x7bPROJECT_NAME\x7d)",
  "",
  "target_sources($\x7bPROJECT_NAME\x7d",
  "    PRIVATE",
  "        # JUCEBUILDER_SOURCES_BEGIN",
  "        Main.cpp",
  "        MainComponent.cpp",
  "        # JUCEBUILDER_SOURCES_END",
  ")",
  "",
  "target_compile_definitions($\x7bPROJECT_NAME\x7d",
  "    PRIVATE",
  "        JUCE_WEB_BROWSER=0",
  "        JUCE_USE_CURL=0",
  "        JUCE_APPLICATION_NAME_STRING=\"$<TARGET_PROPERTY:$\x7bPROJECT_NAME\x7d,JUCE_PRODUCT_NAME>\"",
  "        JUCE_APPLICATION_VERSION_STRING=\"$<TARGET_PROPERTY:$\x7bPROJECT_NAME\x7d,JUCE_VERSION>\")",
  "",
  "target_link_libraries($\x7bPROJECT_NAME\x7d",
  "    PRIVATE",
  "        juce::juce_gui_extra",
  "    PUBLIC",
  "        juce::juce_recommended_config_flags",
  "        juce::juce_recommended_lto_flags",
  "        juce::juce_recommended_warning_flags)"]

def guiApplicationMain : String := fileText [
  "#include <JuceHeader.h>",
  "#include \"MainComponent.h\"",
  "",
  "class GuiApplication : public juce::JUCEApplication",
  "\x7b",
  "public:",
  "    GuiApplication() = default;",
  "",
  "    const juce::String getApplicationName() override \x7b return JUCE_APPLICATION_NAME_STRING; \x7d",
  "    const juce::String getApplicationVersion() override \x7b return JUCE_APPLICATION_VERSION_STRING; \x7d",
  "    bool moreThanOneInstanceAllowed() override \x7b return true; \x7d",
  "",
  "    void initialise (const juce::String&) override",
  "    \x7b",
  "        mainWindow.reset (new MainWindow (getApplicationName()));",
  "    \x7d",
  "",
  "    void shutdown() override \x7b mainWindow = nullptr; \x7d",
  "",
  "    void systemRequestedQuit() override \x7b quit(); \x7d",
  "",
  "    class MainWindow : public juce::DocumentWindow",
  "    \x7b",
  "    public:",
  "        explicit MainWindow (juce::String name)",
  "            : DocumentWindow (name,",
  "                              juce::Desktop::getInstance().getDefaultLookAndFeel()",
  "                                  .findColour (juce::ResizableWindow::backgroundColourId),",
  "                              DocumentWindow::allButtons)",
  "        \x7b",
  "            setUsingNativeTitleBar (true);",
  "            setContentOwned (new MainComponent(), true);",
  "            setResizable (true, true);",
  "            centreWithSize (getWidth(), getHeight());",
  "            setVisible (true);",
  "        \x7d",
  "",
  "        void closeButtonPressed() override",
  "        \x7b",
  "            juce::JUCEApplication::getInstance()->systemRequestedQuit();",
  "        \x7d",
  "",
  "    private:",
  "        JUCE_DECLARE_NON_COPYABLE_WITH_LEAK_DETECTOR (MainWindow)",
  "    \x7d;",
  "",
  "private:",
  "    std::unique_ptr<MainWindow> mainWindow;",
  "\x7d;",
  "",
  "START_JUCE_APPLICATION (GuiApplication)"]

def guiApplicationComponent : String := fileText [
  "#include \"MainComponent.h\"",
  "",
  "MainComponent::MainComponent()",
  "\x7b",
  "    setSize (600, 400);",
  "\x7d",
  "",
  "void MainComponent::paint (juce::Graphics& g)",
  "\x7b",
  "    g.fillAll (getLookAndFeel().findColour (juce::ResizableWindow::backgroundColourId));",
  "    g.setFont (juce::FontOptions (16.0f));",
  "    g.setColour (juce::Colours::white);",
  "    g.drawText (\"Hello World!\", getLocalBounds(), juce::Justification::centred, true);",
  "\x7d",
  "",
  "void MainComponent::resized()",
  "\x7b",
  "\x7d"]

def guiApplicationComponentHeader : String := fileText [
  "#pragma once",
  "",
  "#include <JuceHeader.h>",
  "",
  "class MainComponent : public juce::Component",
  "\x7b",
  "public:",
  "    MainComponent();",
  "",
  "    void paint (juce::Graphics&) override;",
  "    void resized() override;",
  "",
  "private:",
  "    JUCE_DECLARE_NON_COPYABLE_WITH_LEAK_DETECTOR (MainComponent)",
  "\x7d;"]

def audioPluginScript : String := fileText [
  "juce_add_plugin($\x7bPROJECT_NAME\x7d",
  "    COMPANY_NAME \"jucebuilder\"",
  "    IS_SYNTH FALSE",
  "    NEEDS_MIDI_INPUT FALSE",
  "    NEEDS_MIDI_OUTPUT FALSE",
  "    IS_MIDI_EFFECT FALSE",
  "    COPY_PLUGIN_AFTER_BUILD FALSE",
  "    PLUGIN_MANUFACTURER_CODE Jubu",
  "    PLUGIN_CODE Jbp0",
  "    FORMATS AU VST3 Standalone",
  "    PRODUCT_NAME \"$\x7bPROJECT_NAME\x7d\")",
  "",
  "juce_generate_juce_header($\x7bPROJECT_NAME\x7d)",
  "",
  "target_sources($\x7bPROJECT_NAME\x7d",
  "    PRIVATE",
  "        # JUCEBUILDER_SOURCES_BEGIN",
  "        PluginEditor.cpp",
  "        PluginProcessor.cpp",
  "        # JUCEBUILDER_SOURCES_END",
  ")",
  "",
  "target_compile_definitions($\x7bPROJECT_NAME\x7d",
  "    PUBLIC",
  "        JUCE_WEB_BROWSER=0",
  "        JUCE_USE_CURL=0",
  "        JUCE_VST3_CAN_REPLACE_VST2=0)",
  "",
  "target_link_libraries($\x7bPROJECT_NAME\x7d",
  "    PRIVATE",
  "        juce::juce_audio_utils",
  "    PUBLIC",
  "        juce::juce_recommended_config_flags",
  "        juce::juce_recommended_lto_flags",
  "        juce::juce_recommended_warning_flags)"]

def audioPluginEditor : String := fileText [
  "#include \"PluginEditor.h\"",
  "",
  "AudioPluginAudioProcessorEditor::AudioPluginAudioProcessorEditor (AudioPluginAudioProcessor& p)",
  "    : AudioProcessorEditor (&p), processorRef (p)",
  "\x7b",
  "    setSize (400, 300);",
  "\x7d",
  "",
  "void AudioPluginAudioProcessorEditor::paint (juce::Graphics& g)",
  "\x7b",
  "    g.fillAll (getLookAndFeel().findColour (juce::ResizableWindow::backgroundColourId));",
  "    g.setColour (juce::Colours::white);",
  "    g.setFont (juce::FontOptions (15.0f));",
  "    g.drawFittedText (\"Hello World!\", getLocalBounds(), juce::Justification::centred, 1);",
  "\x7d",
  "",
  "void AudioPluginAudioProcessorEditor::resized()",
  "\x7b",
  "\x7d"]

def audioPluginEditorHeader : String := fileText [
  "#pragma once",
  "",
  "#include \"PluginProcessor.h\"",
  "",
  "class AudioPluginAudioProcessorEditor : public juce::AudioProcessorEditor",
  "\x7b",
  "public:",
  "    explicit AudioPluginAudioProcessorEditor (AudioPluginAudioProcessor&);",
  "",
  "    void paint (juce::Graphics&) override;",
  "    void resized() override;",
  "",
  "private:",
  "    AudioPluginAudioProcessor& processorRef;",
  "",
  "    JUCE_DECLARE_NON_COPYABLE_WITH_LEAK_DETECTOR (AudioPluginAudioProcessorEditor)",
  "\x7d;"]

def audioPluginProcessor : String := fileText [
  "#include \"PluginProcessor.h\"",
  "#include \"PluginEditor.h\"",
  "",
  "AudioPluginAudioProcessor::AudioPluginAudioProcessor()",
  "    : AudioProcessor (BusesProperties()",
  "                          .withInput (\"Input\", juce::AudioChannelSet::stereo(), true)",
  "                          .withOutput (\"Output\", juce::AudioChannelSet::stereo(), true))",
  "\x7b",
  "\x7d",
  "",
  "void AudioPluginAudioProcessor::prepareToPlay (double, int)",
  "\x7b",
  "\x7d",
  "",
  "void AudioPluginAudioProcessor::releaseResources()",
  "\x7b",
  "\x7d",
  "",
  "bool AudioPluginAudioProcessor::isBusesLayoutSupported (const BusesLayout& layouts) const",
  "\x7b",
  "    return layouts.getMainOutputChannelSet() == layouts.getMainInputChannelSet();",
  "\x7d",
  "",
  "void AudioPluginAudioProcessor::processBlock (juce::AudioBuffer<float>& buffer, juce::MidiBuffer&)",
  "\x7b",
  "    juce::ScopedNoDenormals noDenormals;",
  "",
  "    for (auto channel = getTotalNumInputChannels(); channel < getTotalNumOutputChannels(); ++channel)",
  "        buffer.clear (channel, 0, buffer.getNumSamples());",
  "\x7d",
  "",
  "juce::AudioProcessorEditor* AudioPluginAudioProcessor::createEditor()",
  "\x7b",
  "    return new AudioPluginAudioProcessorEditor (*this);",
  "\x7d",
  "",
  "void AudioPluginAudioProcessor::getStateInformation (juce::MemoryBlock&)",
  "\x7b",
  "\x7d",
  "",
  "void AudioPluginAudioProcessor::setStateInformation (const void*, int)",
  "\x7b",
  "\x7d",
  "",
  "juce::AudioProcessor* JUCE_CALLTYPE createPluginFilter()",
  "\x7b",
  "    return new AudioPluginAudioProcessor();",
  "\x7d"]

def audioPluginProcessorHeader : String := fileText [
  "#pragma once",
  "",
  "#include <JuceHeader.h>",
  "",
  "class AudioPluginAudioProcessor : public juce::AudioProcessor",
  "\x7b",
  "public:",
  "    AudioPluginAudioProcessor();",
  "    ~AudioPluginAudioProcessor() override = default;",
  "",
  "    void prepareToPlay (double sampleRate, int samplesPerBlock) override;",
  "    void releaseResources() override;",
  "    bool isBusesLayoutSupported (const BusesLayout& layouts) const override;",
  "    void processBlock (juce::AudioBuffer<float>&, juce::MidiBuffer&) override;",
  "    using AudioProcessor::processBlock;",
  "",
  "    juce::AudioProcessorEditor* createEditor() override;",
  "    bool hasEditor() const override \x7b return true; \x7d",
  "",
  "    const juce::String getName() const override \x7b return JucePlugin_Name; \x7d",
  "    bool acceptsMidi() const override \x7b return false; \x7d",
  "    bool producesMidi() const override \x7b return false; \x7d",
  "    bool isMidiEffect() const override \x7b return false; \x7d",
  "    double getTailLengthSeconds() const override \x7b return 0.0; \x7d",
  "",
  "    int getNumPrograms() override \x7b return 1; \x7d",
  "    int getCurrentProgram() override \x7b return 0; \x7d",
  "    void setCurrentProgram (int) override \x7b\x7d",
  "    const juce::String getProgramName (int) override \x7b return \x7b\x7d; \x7d",
  "    void changeProgramName (int, const juce::String&) override \x7b\x7d",
  "",
  "    void getStateInformation (juce::MemoryBlock& destData) override;",
  "    void setStateInformation (const void* data, int sizeInBytes) override;",
  "",
  "private:",
  "    JUCE_DECLARE_NON_COPYABLE_WITH_LEAK_DETECTOR (AudioPluginAudioProcessor)",
  "\x7d;"]

def consoleAppScript : String := fileText [
  "juce_add_console_app($\x7bPROJECT_NAME\x7d",
  "    PRODUCT_NAME \"$\x7bPROJECT_NAME\x7d\")",
  "",
  "juce_generate_juce_header($\x7bPROJECT_NAME\x7d)",
  "",
  "target_sources($\x7bPROJECT_NAME\x7d",
  "    PRIVATE",
  "        # JUCEBUILDER_SOURCES_BEGIN",
  "        Main.cpp",
  "        # JUCEBUILDER_SOURCES_END",
  ")",
  "",
  "target_compile_definitions($\x7bPROJECT_NAME\x7d",
  "    PRIVATE",
  "        JUCE_WEB_BROWSER=0",
  "        JUCE_USE_CURL=0)",
  "",
  "target_link_libraries($\x7bPROJECT_NAME\x7d",
  "    PRIVATE",
  "        juce::juce_core",
  "    PUBLIC",
  "        juce::juce_recommended_config_flags",
  "        juce::juce_recommended_lto_flags",
  "        juce::juce_recommended_warning_flags)"]

def consoleAppMain : String := fileText [
  "#include <JuceHeader.h>",
  "",
  "int main (int argc, char* argv[])",
  "\x7b",
  "    juce::ignoreUnused (argc, argv);",
  "    std::cout << \"Hello World!\" << std::endl;",
  "    return 0;",
  "\x7d"]

def classHeader : String := fileText [
  "#pragma once",
  "",
  "#include <JuceHeader.h>",
  "",
  "class Template",
  "\x7b",
  "public:",
  "    Template();",
  "    ~Template();",
  "",
  "private:",
  "    JUCE_DECLARE_NON_COPYABLE_WITH_LEAK_DETECTOR (Template)",
  "\x7d;"]

def classSource : String := fileText [
  "#include \"Template.h\"",
  "",
  "Template::Template()",
  "\x7b",
  "\x7d",
  "",
  "Template::~Template()",
  "\x7b",
  "\x7d"]

def componentHeader : String := fileText [
  "#pragma once",
  "",
  "#include <JuceHeader.h>",
  "",
  "class Template : public juce::Component",
  "\x7b",
  "public:",
  "    Template();",
  "    ~Template() override;",
  "",
  "    void paint (juce::Graphics&) override;",
  "    void resized() override;",
  "",
  "private:",
  "    JUCE_DECLARE_NON_COPYABLE_WITH_LEAK_DETECTOR (Template)",
  "\x7d;"]

def componentSource : String := fileText [
  "#include \"Template.h\"",
  "",
  "Template::Template()",
  "\x7b",
  "\x7d",
  "",
  "Template::~Template()",
  "\x7b",
  "\x7d",
  "",
  "void Template::paint (juce::Graphics& g)",
  "\x7b",
  "    g.fillAll (getLookAndFeel().findColour (juce::ResizableWindow::backgroundColourId));",
  "\x7d",
  "",
  "void Template::resized()",
  "\x7b",
  "\x7d"]

def guiApplicationFiles : List TemplateFile := [
  ⟨"CMakeLists.txt", guiApplicationScript⟩,
  ⟨"Main.cpp", guiApplicationMain⟩,
  ⟨"MainComponent.cpp", guiApplicationComponent⟩,
  ⟨"MainComponent.h", guiApplicationComponentHeader⟩]

def audioPluginFiles : List TemplateFile := [
  ⟨"CMakeLists.txt", audioPluginScript⟩,
  ⟨"PluginEditor.cpp", audioPluginEditor⟩,
  ⟨"PluginEditor.h", audioPluginEditorHeader⟩,
  ⟨"PluginProcessor.cpp", audioPluginProcessor⟩,
  ⟨"PluginProcessor.h", audioPluginProcessorHeader⟩]

def consoleAppFiles : List TemplateFile := [
  ⟨"CMakeLists.txt", consoleAppScript⟩,
  ⟨"Main.cpp", consoleAppMain⟩]

end JuceWorkbench.Scaffold
